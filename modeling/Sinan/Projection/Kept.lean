import Sinan.Projection.Same

/-!
# Projections: what every call keeps

In every store that the calls lead to, the events are sound and the projections are those that the
events call for (`Kept`).
-/

set_option linter.unusedSectionVars false

namespace Sinan.Projection

open Lib Store Reconciliation

variable {F D : Type} [DecidableEq F] [DecidableEq D] {digests : Digests F D}

/-- the events are sound, and the projections show them -/
structure Kept (digests : Digests F D) (s : ProjectionStore F D) : Prop extends
    SoundEvents digests s.events s.runs where
  reached : Reached digests s.runs s.events.rows s.projections
  bars : BarsShown s.events.rows s.projections.bars

/-! ## all accounts and one account -/

section
variable {events : List (StoredCoreEvent F)}

theorem fullSets_own {S : Type} (setOf : ReconciliationResult F → List S)
    (A : Set (ReconciliationResult F)) (accountId : AccountId) :
    fullSets setOf {r | r ∈ A ∧ r.accountId = accountId} =
      {w | w ∈ fullSets setOf A ∧ w.owner = accountId} := by
  ext w
  constructor
  · rintro ⟨r, ⟨hr, howner⟩, rfl⟩
    exact ⟨⟨r, hr, rfl⟩, howner⟩
  · rintro ⟨⟨r, hr, rfl⟩, howner⟩
    exact ⟨r, ⟨hr, howner⟩, rfl⟩

theorem coherentEvents_iff :
    CoherentEvents digests events ↔ ∀ accountId, AccountCoherent digests events accountId := by
  constructor
  · intro h accountId
    exact ⟨h.positions.mono (fun _ hs => hs.1) (fullSets_mono fun _ hr => hr.1),
      h.orders.mono (fun _ hs => hs.1) (fullSets_mono fun _ hr => hr.1)⟩
  · intro h
    refine ⟨Coherent.of_owners owner_of_key fun accountId => ?_,
      Coherent.of_owners owner_of_key fun accountId => ?_⟩
    · have hown := (h accountId).positions
      rw [fullSets_own] at hown
      exact hown
    · have hown := (h accountId).orders
      rw [fullSets_own] at hown
      exact hown

theorem AccountCoherent.congr {L M : List (StoredCoreEvent F)} {accountId : AccountId}
    (h : AccountCoherent digests M accountId)
    (hpositions : ∀ s, s.accountId = accountId → (s ∈ positionFacts L ↔ s ∈ positionFacts M))
    (horders : ∀ s, s.accountId = accountId → (s ∈ orderFacts L ↔ s ∈ orderFacts M))
    (hresults : ∀ r, r.accountId = accountId → (r ∈ resultFacts L ↔ r ∈ resultFacts M)) :
    AccountCoherent digests L accountId := by
  have hP : {s | s ∈ positionFacts L ∧ s.accountId = accountId} =
      {s | s ∈ positionFacts M ∧ s.accountId = accountId} :=
    Set.ext fun s => and_congr_left (hpositions s)
  have hO : {s | s ∈ orderFacts L ∧ s.accountId = accountId} =
      {s | s ∈ orderFacts M ∧ s.accountId = accountId} :=
    Set.ext fun s => and_congr_left (horders s)
  have hR : {r | r ∈ resultFacts L ∧ r.accountId = accountId} =
      {r | r ∈ resultFacts M ∧ r.accountId = accountId} :=
    Set.ext fun r => and_congr_left (hresults r)
  constructor
  · rw [hP, hR]
    exact h.positions
  · rw [hO, hR]
    exact h.orders

theorem CoherentEvents.append {event : StoredCoreEvent F} (h : CoherentEvents digests events)
    (howned : Owned event)
    (hown : ∀ accountId, event.metadata.accountId = some accountId →
      AccountCoherent digests (events ++ [event]) accountId) :
    CoherentEvents digests (events ++ [event]) := by
  refine coherentEvents_iff.mpr fun accountId => ?_
  by_cases haccount : event.metadata.accountId = some accountId
  · exact hown accountId haccount
  · refine (coherentEvents_iff.mp h accountId).congr (fun s hs => ?_) (fun s hs => ?_) fun r hr => ?_
    · rw [positionFacts_append]
      refine or_iff_left fun hsame => haccount ?_
      rw [howned.position s hsame, hs]
    · rw [orderFacts_append]
      refine or_iff_left fun hsame => haccount ?_
      rw [howned.order s hsame, hs]
    · rw [resultFacts_append]
      refine or_iff_left fun hsame => haccount ?_
      rw [howned.result r hsame, hr]

end

/-! ## one more event in the table -/

section
variable {table table' : EventTable F} {runs runs' : ReconciliationRuns F} {event : StoredCoreEvent F}
  {outcome : WriteOutcome (StoredCoreEvent F)}

theorem appendCoreEvent_ok :
    appendCoreEvent table event = .ok (table', outcome) ↔
      (table.insert event = some table' ∧ outcome = .inserted event) ∨
      (table.insert event = none ∧ table' = table ∧ ∃ existing,
        fetchCoreEventConflicts table event = [existing] ∧
        sameCoreEventFact existing event = true ∧ outcome = .duplicate existing) := by
  unfold appendCoreEvent
  cases hinsert : table.insert event with
  | some inserted =>
    simp only [Except.ok.injEq, Prod.mk.injEq, Option.some.injEq, reduceCtorEq, false_and, or_false]
    exact ⟨fun h => ⟨h.1, h.2.symm⟩, fun h => ⟨h.1, h.2.symm⟩⟩
  | none =>
    simp only [reduceCtorEq, false_and, true_and, false_or]
    constructor
    · intro h
      split at h
      · rename_i existing hconflicts
        split_ifs at h with hsame
        cases h
        exact ⟨rfl, existing, hconflicts, hsame, rfl⟩
      · cases h
    · rintro ⟨rfl, existing, hconflicts, hsame, rfl⟩
      rw [hconflicts]
      exact if_pos hsame

theorem appendCoreEvent_stored (h : appendCoreEvent table event = .ok (table', outcome)) :
    outcome.record ∈ table'.rows ∧ outcome.record.payload = event.payload ∧
      { outcome.record.metadata with
        receivedAt := event.metadata.receivedAt
        createdAt := event.metadata.createdAt } = event.metadata ∧
      (table'.rows = table.rows ++ [outcome.record] ∨ table'.rows = table.rows) := by
  rcases appendCoreEvent_ok.mp h with ⟨hinsert, rfl⟩ | ⟨-, rfl, existing, hconflicts, hsame, rfl⟩
  · have hrows := Table.ofRows_rows hinsert
    refine ⟨?_, rfl, rfl, .inl hrows⟩
    rw [hrows]
    exact List.mem_append_right _ (List.mem_singleton_self _)
  · have hmem : existing ∈ fetchCoreEventConflicts table' event := by
      rw [hconflicts]
      exact List.mem_singleton_self _
    have hfact := of_decide_eq_true hsame
    exact ⟨(List.mem_filter.mp hmem).1, hfact.1, hfact.2, .inr rfl⟩

theorem appendCoreEvent_extends (h : appendCoreEvent table event = .ok (table', outcome)) :
    Extends table table' := by
  rcases appendCoreEvent_ok.mp h with ⟨hinsert, -⟩ | ⟨-, rfl, -⟩
  · exact fun _ _ hget => Table.get_insert_of_some hinsert hget
  · exact Extends.refl _

theorem RunsReadable.extends (hext : Extends table table') (h : RunsReadable table runs) :
    RunsReadable table' runs := fun row hrow => by
  obtain ⟨run, hread⟩ := h row hrow
  exact ⟨run, readRun_extends hext hread⟩

theorem RoutedEvent.stored {stored : StoredCoreEvent F} (h : RoutedEvent event)
    (hpayload : stored.payload = event.payload)
    (htype : stored.metadata.eventType = event.metadata.eventType)
    (haccount : stored.metadata.accountId = event.metadata.accountId) : RoutedEvent stored where
  typed := by rw [hpayload, htype, h.typed]
  fact value accountId hvalue := by
    rw [hpayload] at hvalue
    rw [haccount]
    exact h.fact value accountId hvalue
  bar value hvalue := by
    rw [hpayload] at hvalue
    rw [haccount]
    exact h.bar value hvalue
  result r hr := by
    rw [hpayload] at hr
    rw [haccount]
    exact h.result r hr

end

/-! ## an ingested fact -/

section
variable {s s' : ProjectionStore F D} {metadata : CoreEventMetadata} {value : DurableProjection F}
  {outcome : ProjectionWriteOutcome} {stored : StoredCoreEvent F}

theorem validateIdentity_ok (h : validateIdentity value metadata = .ok ()) :
    RoutedEvent (F := F) ⟨metadata, .fact value⟩ := by
  unfold validateIdentity at h
  obtain ⟨_, htype, h⟩ := bind_ok.mp h
  have htyped : value.eventType = metadata.eventType := (not_not.mp (reject_ok.mp htype)).symm
  refine ⟨htyped, fun value' accountId hvalue haccount => ?_, fun value' hvalue => ?_,
    fun r hr => by cases hr⟩
  · cases hvalue
    rw [haccount] at h
    unfold validateAccountIdentity requireEventAccount at h
    obtain ⟨eventAccountId, hevent, hsame⟩ := bind_ok.mp h
    show metadata.accountId = some accountId
    rw [need_ok.mp hevent, not_not.mp (reject_ok.mp hsame)]
  · cases hvalue
    unfold validateAccountIdentity requireEventAccount at h
    cases hvalueAccount : value.accountId with
    | none =>
      rw [hvalueAccount] at h
      obtain ⟨eventAccountId, hevent, -⟩ := bind_ok.mp h
      exact ⟨eventAccountId, need_ok.mp hevent⟩
    | some accountId =>
      rw [hvalueAccount] at h
      obtain ⟨eventAccountId, hevent, -⟩ := bind_ok.mp h
      exact ⟨eventAccountId, need_ok.mp hevent⟩

theorem ingestDurable_ok :
    ingestDurable digests s metadata value = .ok (s', outcome) ↔
      validateIdentity value metadata = .ok () ∧
      ∃ events append, appendCoreEvent s.events ⟨metadata, .fact value⟩ = .ok (events, append) ∧
        each value.fullSetConsistencyAccountId.toList (validateAccountDurable digests events) = .ok () ∧
        ∃ p decision, applyProjection digests s.projections value append.record.metadata =
            .ok (p, decision) ∧
          s' = { s with events := events, projections := p } ∧
          outcome = if append.wasInserted then decision.outcome else .duplicate := by
  unfold ingestDurable
  constructor
  · intro h
    obtain ⟨_, hidentity, h⟩ := bind_ok.mp h
    obtain ⟨⟨events, append⟩, happend, h⟩ := bind_ok.mp h
    obtain ⟨_, hconsistent, h⟩ := bind_ok.mp h
    obtain ⟨⟨p, decision⟩, happly, h⟩ := bind_ok.mp h
    cases pure_ok.mp h
    exact ⟨hidentity, events, append, happend, hconsistent, p, decision, happly, rfl, rfl⟩
  · rintro ⟨hidentity, events, append, happend, hconsistent, p, decision, happly, rfl, rfl⟩
    exact bind_ok.mpr ⟨(), hidentity, bind_ok.mpr ⟨(events, append), happend,
      bind_ok.mpr ⟨(), hconsistent, bind_ok.mpr ⟨(p, decision), happly, rfl⟩⟩⟩⟩

theorem fullSetConsistency_none (h : value.fullSetConsistencyAccountId = none)
    (events : List (StoredCoreEvent F)) (metadata : CoreEventMetadata) :
    positionFacts (events ++ [⟨metadata, .fact value⟩]) = positionFacts events ∧
      orderFacts (events ++ [⟨metadata, .fact value⟩]) = orderFacts events ∧
      resultFacts (events ++ [⟨metadata, .fact value⟩]) = resultFacts events := by
  refine ⟨positionFacts_same fun snapshot hsame => ?_, orderFacts_same fun snapshot hsame => ?_,
    resultFacts_same fun r => by rintro ⟨⟩⟩
  · cases hsame
    cases h
  · cases hsame
    cases h

theorem fullSetConsistency_some {accountId : AccountId}
    (h : value.fullSetConsistencyAccountId = some accountId) : value.accountId = some accountId := by
  cases value with
  | position snapshot => exact h
  | order snapshot => exact h
  | _ => cases h

theorem ingest_coherent (hdist : digests.Distinct) {events : EventTable F}
    (hsound : CoherentEvents digests s.events.rows) (hrouted : ∀ e ∈ events.rows, RoutedEvent e)
    (hstored : RoutedEvent stored) (hpayload : stored.payload = .fact value)
    (hrows : events.rows = s.events.rows ++ [stored])
    (hconsistent : each value.fullSetConsistencyAccountId.toList
      (validateAccountDurable digests events) = .ok ()) : CoherentEvents digests events.rows := by
  have hshape : stored = ⟨stored.metadata, .fact value⟩ := by rw [← hpayload]
  cases hconsistency : value.fullSetConsistencyAccountId with
  | none =>
    obtain ⟨hpositions, horders, hresults⟩ :=
      fullSetConsistency_none hconsistency s.events.rows stored.metadata
    rw [← hshape] at hpositions horders hresults
    rw [hrows]
    constructor
    · rw [positionSets, hpositions, hresults]
      exact hsound.positions
    · rw [orderSets, horders, hresults]
      exact hsound.orders
  | some accountId =>
    rw [hconsistency] at hconsistent
    have hcheck := each_ok.mp hconsistent accountId (List.mem_singleton_self _)
    have hown := (validateAccountDurable_ok hdist hrouted).mp hcheck
    rw [hrows] at hown ⊢
    refine hsound.append (hstored.owned fun r hr => ?_) fun accountId' haccount' => ?_
    · rw [hpayload] at hr
      cases hr
    · have haccount := hstored.fact value accountId hpayload (fullSetConsistency_some hconsistency)
      rw [haccount'] at haccount
      cases haccount
      exact hown

theorem SoundEvents.fact {table table' : EventTable F} {runs : ReconciliationRuns F}
    (h : SoundEvents digests table runs) (hext : Extends table table')
    (hrows : table'.rows = table.rows ++ [stored]) (hrouted : RoutedEvent stored)
    (hpayload : ∀ r, stored.payload ≠ .result r) (hcoherent : CoherentEvents digests table'.rows) :
    SoundEvents digests table' runs where
  routed e he := by
    rw [hrows] at he
    rcases List.mem_append.mp he with he | he
    · exact h.routed e he
    · rw [List.mem_singleton.mp he]
      exact hrouted
  coherent := hcoherent
  readable := h.readable.extends hext
  known e he r hr := by
    rw [hrows] at he
    rcases List.mem_append.mp he with he | he
    · exact h.known e he r hr
    · rw [List.mem_singleton.mp he] at hr
      exact absurd hr (hpayload r)

theorem Reached.fact {runs : ReconciliationRuns F} {base : List (StoredCoreEvent F)}
    {p p' : Projections F D} {decision : ApplyDecision} (hdist : digests.Distinct)
    (h : Reached digests runs base p) (hpayload : stored.payload = .fact value)
    (hcoherent : CoherentEvents digests (base ++ [stored]))
    (happly : applyProjection digests p value stored.metadata = .ok (p', decision)) :
    Reached digests runs (base ++ [stored]) p' := by
  have hshape : stored = ⟨stored.metadata, .fact value⟩ := by rw [← hpayload]
  rw [hshape] at hcoherent
  have hfree := h.projected.fact_undisputed hdist h.decided happly
  have hprojected := h.projected.fact hcoherent happly
  rw [← hshape] at hprojected
  refine ⟨?_, ?_⟩
  · rw [appliedResults_fact hpayload]
    exact hprojected
  · refine h.decided.append (by rw [hpayload]; exact hfree) ?_ ?_
    · rw [hpayload]
      exact (fact_keys value).1
    · rw [hpayload]
      exact (fact_keys value).2

theorem sameObservations_again {runs : ReconciliationRuns F} {events : List (StoredCoreEvent F)}
    (h : stored ∈ events) :
    SameObservations runs events (events ++ [stored]) := by
  have hless : SameObservations runs (events ++ [stored]) events :=
    sameObservations (List.subset_append_left _ _) fun e he hout => by
      rcases List.mem_append.mp he with he | he
      · exact absurd he hout
      · exact absurd (List.mem_singleton.mp he ▸ h) hout
  obtain ⟨haccounts, hsymbols, hpositions, horders, hresults, happlied⟩ := hless
  exact ⟨haccounts.symm, hsymbols.symm, hpositions.symm, horders.symm, hresults.symm,
    happlied.symm⟩

theorem BarsShown.again {events : List (StoredCoreEvent F)} {bars : Keyed (barKey (F := F))}
    (hmem : stored ∈ events) (h : BarsShown (events ++ [stored]) bars) : BarsShown events bars := by
  refine ⟨fun row hrow => ?_, fun e he => h.top e (List.mem_append_left _ he)⟩
  obtain ⟨e, he, hb⟩ := h.sound row hrow
  rcases List.mem_append.mp he with he | he
  · exact ⟨e, he, hb⟩
  · rw [List.mem_singleton.mp he] at hb
    exact ⟨stored, hmem, hb⟩

theorem Kept.ingest (hdist : digests.Distinct) (h : Kept digests s)
    (hok : ingestDurable digests s metadata value = .ok (s', outcome)) : Kept digests s' := by
  obtain ⟨hidentity, events, append, happend, hconsistent, p, decision, happly, rfl, -⟩ :=
    ingestDurable_ok.mp hok
  obtain ⟨hmem, hpayload, hsame, hrows⟩ := appendCoreEvent_stored happend
  have hext := appendCoreEvent_extends happend
  have hstored : RoutedEvent append.record := by
    refine (validateIdentity_ok hidentity).stored hpayload ?_ ?_
    · have htype := congrArg CoreEventMetadata.eventType hsame
      exact htype
    · have haccount := congrArg CoreEventMetadata.accountId hsame
      exact haccount
  rcases hrows with hrows | hrows
  · have hrouted : ∀ e ∈ events.rows, RoutedEvent e := by
      intro e he
      rw [hrows] at he
      rcases List.mem_append.mp he with he | he
      · exact h.routed e he
      · rw [List.mem_singleton.mp he]
        exact hstored
    have hcoherent := ingest_coherent hdist h.coherent hrouted hstored hpayload hrows hconsistent
    have hsound := h.toSoundEvents.fact hext hrows hstored
      (fun r hr => by rw [hpayload] at hr; cases hr) hcoherent
    rw [hrows] at hcoherent
    have hreached := h.reached.fact hdist hpayload hcoherent happly
    obtain ⟨hbars, -⟩ := applyProjection_showsBars hdist hstored hpayload h.bars happly
    refine ⟨hsound, ?_, ?_⟩
    · show Reached digests s.runs events.rows p
      rw [hrows]
      exact hreached
    · show BarsShown events.rows p.bars
      rw [hrows]
      exact hbars
  · have hthere : append.record ∈ s.events.rows := hrows ▸ hmem
    have hcoherent : CoherentEvents digests (s.events.rows ++ [append.record]) :=
      h.coherent.mono (append_subset (fun _ he => he) hthere)
    have hreached := h.reached.fact hdist hpayload hcoherent happly
    obtain ⟨hbars, -⟩ := applyProjection_showsBars hdist hstored hpayload h.bars happly
    have hevents : ∀ e, e ∈ events.rows ↔ e ∈ s.events.rows := fun e => by rw [hrows]
    refine ⟨⟨fun e he => h.routed e ((hevents e).mp he), ?_, h.readable.extends hext,
      fun e he => h.known e ((hevents e).mp he)⟩, ?_, ?_⟩
    · show CoherentEvents digests events.rows
      rw [hrows]
      exact h.coherent
    · show Reached digests s.runs events.rows p
      rw [hrows]
      exact hreached.congr (sameObservations_again hthere)
    · show BarsShown events.rows p.bars
      rw [hrows]
      exact hbars.again hthere

end

/-! ## a run without a new result -/

/-- two tables of runs with the same results -/
def SameResults (runs runs' : ReconciliationRuns F) : Prop :=
  ∀ event r, AppliedBy runs' event r ↔ AppliedBy runs event r

section
variable {s : ProjectionStore F D} {events : EventTable F} {runs runs' : ReconciliationRuns F}
  {row row' : RunRow F} {run : StoredReconciliationRun F}

theorem SameResults.applied (h : SameResults runs runs') (L : List (StoredCoreEvent F)) :
    appliedResults runs' L = appliedResults runs L := by
  ext x
  constructor
  · rintro ⟨e, he, happlied, hreceived⟩
    exact ⟨e, he, (h e x.1).mp happlied, hreceived⟩
  · rintro ⟨e, he, happlied, hreceived⟩
    exact ⟨e, he, (h e x.1).mpr happlied, hreceived⟩

theorem SameResults.insert (h : runs.insert row = some runs') (hresult : row.result = none) :
    SameResults runs runs' := by
  intro event r
  have hrows := Table.ofRows_rows h
  constructor
  · rintro ⟨row', hrow', columns, hcolumns, hrest⟩
    rw [hrows] at hrow'
    rcases List.mem_append.mp hrow' with hrow' | hrow'
    · exact ⟨row', hrow', columns, hcolumns, hrest⟩
    · rw [List.mem_singleton.mp hrow', hresult] at hcolumns
      cases hcolumns
  · rintro ⟨row', hrow', hrest⟩
    refine ⟨row', ?_, hrest⟩
    rw [hrows]
    exact List.mem_append_left _ hrow'

theorem SameResults.put (h : runs.put row' = some runs')
    (hget : runs.get row'.request.requestId = some row) (hrequest : row'.request = row.request)
    (hresult : row'.result = row.result) : SameResults runs runs' := by
  intro event r
  obtain ⟨hmem, -⟩ := Table.get_eq_some.mp hget
  constructor
  · rintro ⟨x, hx, columns, hcolumns, hid, hpayload, rfl⟩
    rcases (Table.mem_put h hget).mp hx with rfl | ⟨hx, -⟩
    · exact ⟨row, hmem, columns, hresult ▸ hcolumns, hid, hpayload, by rw [hrequest]⟩
    · exact ⟨x, hx, columns, hcolumns, hid, hpayload, rfl⟩
  · rintro ⟨x, hx, columns, hcolumns, hid, hpayload, rfl⟩
    by_cases hkey : x.request.requestId = row'.request.requestId
    · have hsame : x = row := by
        have hgot : runs.get row'.request.requestId = some x := Table.get_eq_some.mpr ⟨hx, hkey⟩
        rw [hget] at hgot
        exact (Option.some.inj hgot).symm
      subst hsame
      exact ⟨row', (Table.mem_put h hget).mpr (.inl rfl), columns, hresult.trans hcolumns, hid,
        hpayload, by rw [hrequest]⟩
    · exact ⟨x, (Table.mem_put h hget).mpr (.inr ⟨hx, hkey⟩), columns, hcolumns, hid, hpayload, rfl⟩

theorem RunsReadable.insert (h : RunsReadable events runs) (hinsert : runs.insert row = some runs')
    (hread : readRun events row = .ok run) :
    RunsReadable events runs' := by
  intro row' hrow'
  rw [Table.ofRows_rows hinsert] at hrow'
  rcases List.mem_append.mp hrow' with hrow' | hrow'
  · exact h row' hrow'
  · rw [List.mem_singleton.mp hrow']
    exact ⟨run, hread⟩

theorem RunsReadable.put (h : RunsReadable events runs) (hput : runs.put row' = some runs')
    (hget : runs.get row'.request.requestId = some row) (hread : readRun events row' = .ok run) :
    RunsReadable events runs' := by
  intro x hx
  rcases (Table.mem_put hput hget).mp hx with rfl | ⟨hx, -⟩
  · exact ⟨run, hread⟩
  · exact h x hx

/-- a request among the events, and runs with the same results, leave the projections as they are -/
theorem Kept.aside (h : Kept digests s) {stored : StoredCoreEvent F} {request : ReconciliationRequest}
    (hrows : events.rows = s.events.rows ++ [stored] ∨ events.rows = s.events.rows)
    (hpayload : stored.payload = .request request) (hrouted : RoutedEvent stored)
    (hreadable : RunsReadable events runs) (hsame : SameResults s.runs runs) :
    Kept digests { s with events := events, runs := runs } := by
  have haside : Aside stored.payload := .inr ⟨request, hpayload⟩
  have hnone : barOf stored = none := by
    unfold barOf
    rw [hpayload]
  have hobservations (runs : ReconciliationRuns F) :
      SameObservations runs events.rows s.events.rows := by
    rcases hrows with hrows | hrows
    · rw [hrows]
      refine sameObservations (List.subset_append_left _ _) fun e he hout => ?_
      rcases List.mem_append.mp he with he | he
      · exact absurd he hout
      · rw [List.mem_singleton.mp he]
        exact haside
    · rw [hrows]
      exact sameObservations (fun _ he => he) fun e he hout => absurd he hout
  have hbars : BarsShown events.rows s.projections.bars := by
    rcases hrows with hrows | hrows
    · rw [hrows]
      exact h.bars.other hnone
    · rw [hrows]
      exact h.bars
  have hmem : ∀ e ∈ events.rows, e ∈ s.events.rows ∨ e = stored := by
    intro e he
    rcases hrows with hrows | hrows
    · rw [hrows] at he
      exact (List.mem_append.mp he).imp_right List.mem_singleton.mp
    · rw [hrows] at he
      exact .inl he
  refine ⟨⟨fun e he => ?_, ?_, hreadable, fun e he r hr => ?_⟩, ?_, hbars⟩
  · rcases hmem e he with he | rfl
    · exact h.routed e he
    · exact hrouted
  · have hall := hobservations runs
    refine ⟨?_, ?_⟩
    · show CoherentSets (positionKind digests) (positionFacts events.rows) (positionSets events.rows)
      rw [positionSets, hall.positions, hall.results]
      exact h.coherent.positions
    · show CoherentSets (orderKind digests) (orderFacts events.rows) (orderSets events.rows)
      rw [orderSets, hall.orders, hall.results]
      exact h.coherent.orders
  · rcases hmem e he with he | rfl
    · obtain ⟨q, hq⟩ := h.known e he r hr
      exact ⟨q, (hsame e q).mpr hq⟩
    · rw [hpayload] at hr
      cases hr
  · refine Reached.congr (M := s.events.rows) (hobservations runs) ⟨?_, h.reached.decided⟩
    rw [hsame.applied]
    exact h.reached.projected

end

/-! ## creating and escalating a run -/

section
variable {s s' : ProjectionStore F D} {newRun : NewReconciliationRun}
  {escalation : NewManualReconciliationEscalation} {outcome : WriteOutcome (StoredReconciliationRun F)}

theorem validateEventMetadata_ok {metadata : CoreEventMetadata} {eventType : String}
    {requestId : RequestId} {accountId : AccountId} {terminalId : Option TerminalId}
    {clientId : Option ClientId} {eventAt : Int}
    (h : validateEventMetadata metadata eventType requestId accountId terminalId clientId eventAt =
      .ok ()) : metadata.eventType = eventType ∧ metadata.accountId = some accountId := by
  unfold validateEventMetadata at h
  simp only [reject_ok, not_or, not_not] at h
  exact ⟨h.1, h.2.2.2.2.2.2.2.1.1⟩

/-- what an accepted creation has done -/
structure CreatedRun (s s' : ProjectionStore F D) (newRun : NewReconciliationRun)
    (events : EventTable F) (append : WriteOutcome (StoredCoreEvent F))
    (stored : StoredReconciliationRun F) (outcome : WriteOutcome (StoredReconciliationRun F)) :
    Prop where
  metadata : newRun.eventMetadata.eventType = "reconciliation.request" ∧
    newRun.eventMetadata.accountId = some newRun.request.accountId
  appended : appendCoreEvent s.events ⟨newRun.eventMetadata, .request newRun.request⟩ =
    .ok (events, append)
  fetched : ∃ row, s'.runs.get newRun.request.requestId = some row ∧ readRun events row = .ok stored
  events : s'.events = events
  projections : s'.projections = s.projections
  written : (s.runs.insert (newRunRow newRun) = some s'.runs ∧ append.wasInserted = true ∧
      outcome = .inserted stored) ∨
    (s.runs.insert (newRunRow newRun) = none ∧ append.wasInserted = false ∧
      sameRequestRun stored newRun = true ∧ s'.runs = s.runs ∧ outcome = .duplicate stored)

theorem createReconciliationRun_ok (h : createReconciliationRun s newRun = .ok (s', outcome)) :
    ∃ events append stored, CreatedRun s s' newRun events append stored outcome := by
  unfold createReconciliationRun insertRun at h
  obtain ⟨_, -, h⟩ := bind_ok.mp h
  obtain ⟨_, hmetadata, h⟩ := bind_ok.mp h
  obtain ⟨⟨events, append⟩, happend, h⟩ := bind_ok.mp h
  obtain ⟨stored, hstored, h⟩ := bind_ok.mp h
  obtain ⟨row, hrow, hread⟩ := fetchRequiredRun_ok.mp hstored
  cases hinsert : s.runs.insert (newRunRow newRun) with
  | some runs =>
    rw [hinsert] at hrow h
    simp only [true_and, reduceCtorEq, false_and, if_false] at h
    split_ifs at h with hinserted
    cases pure_ok.mp h
    exact ⟨events, append, stored, validateEventMetadata_ok hmetadata, happend, ⟨row, hrow, hread⟩,
      rfl, rfl, .inl ⟨hinsert, hinserted, rfl⟩⟩
  | none =>
    rw [hinsert] at hrow h
    simp only [reduceCtorEq, false_and, if_false, true_and] at h
    split_ifs at h with hduplicate
    cases pure_ok.mp h
    exact ⟨events, append, stored, validateEventMetadata_ok hmetadata, happend, ⟨row, hrow, hread⟩,
      rfl, rfl, .inr ⟨hinsert, hduplicate.1, hduplicate.2, rfl, rfl⟩⟩

theorem Kept.create (h : Kept digests s)
    (hok : createReconciliationRun s newRun = .ok (s', outcome)) : Kept digests s' := by
  obtain ⟨events, append, stored, hcreated⟩ := createReconciliationRun_ok hok
  obtain ⟨hmem, hpayload, hsame, hrows⟩ := appendCoreEvent_stored hcreated.appended
  have hext := appendCoreEvent_extends hcreated.appended
  have htype := congrArg CoreEventMetadata.eventType hsame
  have haccount := congrArg CoreEventMetadata.accountId hsame
  have hrouted : RoutedEvent append.record := by
    refine ⟨?_, fun value accountId hvalue => ?_, fun value hvalue => ?_, fun r hr => ?_⟩
    · rw [hpayload]
      exact (htype.trans hcreated.metadata.1).symm
    · rw [hpayload] at hvalue
      cases hvalue
    · rw [hpayload] at hvalue
      cases hvalue
    · rw [hpayload] at hr
      cases hr
  have hstore : s' = { s with events := events, runs := s'.runs } := by
    have hevents := hcreated.events
    have hprojections := hcreated.projections
    cases s'
    cases hevents
    cases hprojections
    rfl
  rw [hstore]
  rcases hcreated.written with ⟨hinsert, -⟩ | ⟨-, -, -, hruns, -⟩
  · obtain ⟨row, hrow, hread⟩ := hcreated.fetched
    have hown : row = newRunRow newRun := by
      have hkey : (newRunRow (F := F) newRun).request.requestId = newRun.request.requestId := rfl
      rw [Table.get_insert hinsert, if_pos hkey] at hrow
      exact (Option.some.inj hrow).symm
    rw [hown] at hread
    exact h.aside hrows hpayload hrouted ((h.readable.extends hext).insert hinsert hread)
      (SameResults.insert hinsert rfl)
  · rw [hruns]
    exact h.aside hrows hpayload hrouted (h.readable.extends hext) fun _ _ => Iff.rfl

theorem escalateReconciliationManual_ok
    (h : escalateReconciliationManual s escalation = .ok (s', outcome)) :
    ∃ existing, s.runs.get escalation.evidence.requestId = some existing.toRunRow ∧
      readRun s.events existing.toRunRow = .ok existing ∧
      validateManualEscalation existing escalation = .ok () ∧
      ((s' = s ∧ outcome = .duplicate existing ∧
          existing.manual = some ⟨escalation.evidence, escalation.evaluation⟩ ∧
          existing.updatedAt = escalation.updatedAt) ∨
        ∃ runs stored, existing.manual = none ∧ existing.status ≠ .completed ∧
          s.runs.put { existing.toRunRow with
            status := .manualReconciliationRequired
            manual := some ⟨escalation.evidence, escalation.evaluation⟩
            updatedAt := escalation.updatedAt } = some runs ∧
          fetchRequiredRun s.events runs escalation.evidence.requestId
            (runNotFound escalation.evidence.requestId) = .ok stored ∧
          s' = { s with runs := runs } ∧ outcome = .inserted stored) := by
  unfold escalateReconciliationManual at h
  obtain ⟨existing, hexisting, h⟩ := bind_ok.mp h
  obtain ⟨_, hvalid, h⟩ := bind_ok.mp h
  obtain ⟨row, hrow, hread⟩ := fetchRequiredRun_ok.mp hexisting
  have hsame := readRun_row hread
  subst hsame
  refine ⟨existing, hrow, hread, hvalid, ?_⟩
  cases hmanual : existing.manual with
  | some manual =>
    rw [hmanual] at h
    dsimp only at h
    split_ifs at h with hdone
    cases pure_ok.mp h
    exact .inl ⟨rfl, rfl, congrArg some hdone.1, hdone.2⟩
  | none =>
    rw [hmanual] at h
    obtain ⟨_, hstatus, h⟩ := bind_ok.mp h
    obtain ⟨runs, hput, h⟩ := bind_ok.mp h
    obtain ⟨stored, hstored, h⟩ := bind_ok.mp h
    cases pure_ok.mp h
    exact .inr ⟨runs, stored, rfl, reject_ok.mp hstatus, need_ok.mp hput, hstored, rfl, rfl⟩

theorem Kept.escalate (h : Kept digests s)
    (hok : escalateReconciliationManual s escalation = .ok (s', outcome)) : Kept digests s' := by
  obtain ⟨existing, hget, -, -, ⟨rfl, -⟩ | ⟨runs, stored, -, -, hput, hstored, rfl, -⟩⟩ :=
    escalateReconciliationManual_ok hok
  · exact h
  · obtain ⟨row, hrow, hread⟩ := fetchRequiredRun_ok.mp hstored
    have hkey := Table.key_of_get hget
    rw [← hkey] at hget hrow
    have hown := Table.get_put_self hput hget
    rw [hrow] at hown
    cases hown
    refine ⟨⟨h.routed, h.coherent, h.readable.put hput hget hread, fun e he r hr => ?_⟩, ?_, h.bars⟩
    · obtain ⟨q, hq⟩ := h.known e he r hr
      exact ⟨q, (SameResults.put hput hget rfl rfl e q).mpr hq⟩
    · refine ⟨?_, h.reached.decided⟩
      show Projected digests s.events.rows (appliedResults runs s.events.rows) s.projections
      rw [(SameResults.put hput hget rfl rfl).applied]
      exact h.reached.projected

end

/-! ## one account rebuilt -/

section
variable {table : EventTable F} {runs : ReconciliationRuns F} {p p' : Projections F D}
  {accountId : AccountId}

/-- what the rebuild of an account goes through -/
def accountReplay (events : List (StoredCoreEvent F)) (accountId : AccountId) :
    List (StoredCoreEvent F) :=
  replayOrder ((accountEvents events accountId).filter fun e =>
    replayEventTypes.contains e.metadata.eventType)

variable {e : StoredCoreEvent F}

theorem mem_replayOrder {events : List (StoredCoreEvent F)} :
    e ∈ replayOrder events ↔ e ∈ events := mem_sortBy

theorem mem_accountReplay {events : List (StoredCoreEvent F)} :
    e ∈ accountReplay events accountId ↔
      (e ∈ events ∧ e.metadata.accountId = some accountId) ∧
        e.metadata.eventType ∈ replayEventTypes := by
  rw [accountReplay, mem_replayOrder, List.mem_filter, mem_accountEvents, List.contains_iff_mem]

theorem aside_of_type (hrouted : RoutedEvent e) (htype : e.metadata.eventType ∉ replayEventTypes) :
    Aside e.payload := by
  rw [← hrouted.typed] at htype
  cases hpayload : e.payload with
  | fact value =>
    rw [hpayload] at htype
    cases value with
    | account snapshot => exact absurd (show "account.snapshot" ∈ replayEventTypes by decide) htype
    | symbol snapshot => exact absurd (show "symbol.metadata" ∈ replayEventTypes by decide) htype
    | position snapshot =>
      exact absurd (show "position.snapshot" ∈ replayEventTypes by decide) htype
    | order snapshot => exact absurd (show "order.snapshot" ∈ replayEventTypes by decide) htype
    | marketBar bar => exact .inl ⟨bar, rfl⟩
  | request request => exact .inr ⟨request, rfl⟩
  | result result =>
    rw [hpayload] at htype
    exact absurd (show "reconciliation.result" ∈ replayEventTypes by decide) htype

theorem sameObservations_account (hrouted : ∀ e ∈ table.rows, RoutedEvent e) :
    SameObservations runs table.rows
      (otherEvents table.rows accountId ++ accountReplay table.rows accountId) := by
  refine sameObservations (fun e he => ?_) fun e he hout => ?_
  · rcases List.mem_append.mp he with he | he
    · exact (mem_otherEvents.mp he).1
    · exact (mem_accountReplay.mp he).1.1
  · refine aside_of_type (hrouted e he) fun htype => hout ?_
    by_cases haccount : e.metadata.accountId = some accountId
    · exact List.mem_append_right _ (mem_accountReplay.mpr ⟨⟨he, haccount⟩, htype⟩)
    · exact List.mem_append_left _ (mem_otherEvents.mpr ⟨he, haccount⟩)

/-- The rebuild of an account succeeds exactly if its events are replayable after those of the others,
and leaves the state of all events. -/
theorem Reached.rebuildsAccount (hdist : digests.Distinct) (hsound : SoundEvents digests table runs)
    (h : Reached digests runs table.rows p) (accountId : AccountId) :
    ((∃ next, rebuildAccount digests table runs p accountId = .ok next) ↔
        Replayable (otherEvents table.rows accountId) (accountReplay table.rows accountId)) ∧
      ∀ p' report, rebuildAccount digests table runs p accountId = .ok (p', report) →
        Reached digests runs table.rows p' ∧ p'.bars = p.bars := by
  have hdurable : validateAccountDurable digests table accountId = .ok () :=
    (validateAccountDurable_ok hdist hsound.routed).mpr (coherentEvents_iff.mp hsound.coherent _)
  have hall : otherEvents table.rows accountId ++ accountReplay table.rows accountId ⊆ table.rows := by
    intro e he
    rcases List.mem_append.mp he with he | he
    · exact (mem_otherEvents.mp he).1
    · exact (mem_accountReplay.mp he).1.1
  have htypes : ∀ e ∈ accountReplay table.rows accountId,
      e.metadata.eventType ∈ replayEventTypes := fun e he => (mem_accountReplay.mp he).2
  obtain ⟨hsucceeds, hreaches⟩ :=
    (h.erase hsound accountId).replays hdist hsound hall htypes ⟨0, 0⟩
  have hrebuild (next : Projections F D × ReconciliationProjectionRebuildReport) :
      rebuildAccount digests table runs p accountId = .ok next ↔
        (accountReplay table.rows accountId).foldlM (replayEvent digests table runs)
          (eraseAccount p accountId, ⟨0, 0⟩) = .ok next := by
    unfold rebuildAccount
    rw [hdurable]
    exact Iff.rfl
  refine ⟨?_, fun p' report hok => ?_⟩
  · rw [← hsucceeds]
    exact exists_congr hrebuild
  · obtain ⟨hreached, hbars⟩ := hreaches p' report ((hrebuild _).mp hok)
    exact ⟨hreached.congr (sameObservations_account hsound.routed), hbars⟩

end

/-! ## a committed result -/

section
variable {s s' : ProjectionStore F D} {bundle : NewReconciliationResult F}
  {outcome : WriteOutcome (StoredReconciliationRun F)} {existing : StoredReconciliationRun F}

/-- what the first commit of a result has done -/
structure CommittedResult (digests : Digests F D) (s s' : ProjectionStore F D)
    (existing : StoredReconciliationRun F) (bundle : NewReconciliationResult F)
    (stored : StoredReconciliationRun F) : Prop where
  status : existing.status = .requested
  inserted : s.events.insert ⟨bundle.eventMetadata, .result bundle.result⟩ = some s'.events
  durable : validateAccountDurable digests s'.events bundle.result.accountId = .ok ()
  applied : applyResult digests s'.events s.runs s.projections
    ⟨existing.request, bundle.result, bundle.evaluation, bundle.completeness⟩
    bundle.eventMetadata.receivedAt = .ok s'.projections
  put : s.runs.put (existing.toRunRow.settled bundle) = some s'.runs
  fetched : fetchRequiredRun s'.events s'.runs bundle.result.requestId
    (runNotFound bundle.result.requestId) = .ok stored

theorem commitNewResult_ok :
    commitNewResult digests s existing bundle = .ok (s', outcome) ↔
      ∃ stored, CommittedResult digests s s' existing bundle stored ∧ outcome = .inserted stored := by
  unfold commitNewResult
  constructor
  · intro h
    obtain ⟨_, hstatus, h⟩ := bind_ok.mp h
    obtain ⟨⟨events, append⟩, happend, h⟩ := bind_ok.mp h
    obtain ⟨_, hinserted, h⟩ := bind_ok.mp h
    obtain ⟨_, hdurable, h⟩ := bind_ok.mp h
    obtain ⟨p, happly, h⟩ := bind_ok.mp h
    obtain ⟨runs, hput, h⟩ := bind_ok.mp h
    obtain ⟨stored, hstored, h⟩ := bind_ok.mp h
    cases pure_ok.mp h
    have hnew := reject_ok.mp hinserted
    rcases appendCoreEvent_ok.mp happend with ⟨hinsert, -⟩ | ⟨-, -, _, -, -, rfl⟩
    · exact ⟨stored, ⟨not_not.mp (reject_ok.mp hstatus), hinsert, hdurable, happly, need_ok.mp hput,
        hstored⟩, rfl⟩
    · exact absurd rfl hnew
  · rintro ⟨stored, h, rfl⟩
    refine bind_ok.mpr ⟨(), reject_ok.mpr (not_not.mpr h.status), ?_⟩
    refine bind_ok.mpr ⟨(s'.events, .inserted ⟨bundle.eventMetadata, .result bundle.result⟩),
      appendCoreEvent_ok.mpr (.inl ⟨h.inserted, rfl⟩), ?_⟩
    refine bind_ok.mpr ⟨(), reject_ok.mpr (by rintro ⟨⟩), bind_ok.mpr ⟨(), h.durable, ?_⟩⟩
    exact bind_ok.mpr ⟨s'.projections, h.applied, bind_ok.mpr ⟨s'.runs, need_ok.mpr h.put,
      bind_ok.mpr ⟨stored, h.fetched, rfl⟩⟩⟩

theorem commitReconciliationResult_ok :
    commitReconciliationResult digests s bundle = .ok (s', outcome) ↔
      ∃ existing, s.runs.get bundle.result.requestId = some existing.toRunRow ∧
        readRun s.events existing.toRunRow = .ok existing ∧
        validateResultBundle existing bundle = .ok () ∧
        ((existing.result = none ∧ ∃ stored, CommittedResult digests s s' existing bundle stored ∧
            outcome = .inserted stored) ∨
          (existing.result.isSome = true ∧ sameResultCommit existing bundle = true ∧
            (∃ report, rebuildAccount digests s.events s.runs s.projections
              existing.request.accountId = .ok (s'.projections, report)) ∧
            s'.events = s.events ∧ s'.runs = s.runs ∧ outcome = .duplicate existing)) := by
  unfold commitReconciliationResult
  constructor
  · intro h
    obtain ⟨existing, hexisting, h⟩ := bind_ok.mp h
    obtain ⟨_, hvalid, h⟩ := bind_ok.mp h
    obtain ⟨row, hrow, hread⟩ := fetchRequiredRun_ok.mp hexisting
    have hsame := readRun_row hread
    subst hsame
    refine ⟨existing, hrow, hread, hvalid, ?_⟩
    split_ifs at h with hresult
    · obtain ⟨_, hrepeat, h⟩ := bind_ok.mp h
      obtain ⟨⟨p, report⟩, hrebuild, h⟩ := bind_ok.mp h
      cases pure_ok.mp h
      exact .inr ⟨hresult, Bool.eq_true_of_not_eq_false (reject_ok.mp hrepeat), ⟨report, hrebuild⟩,
        rfl, rfl, rfl⟩
    · obtain ⟨stored, hcommitted, rfl⟩ := commitNewResult_ok.mp h
      exact .inl ⟨Option.not_isSome_iff_eq_none.mp hresult, stored, hcommitted, rfl⟩
  · rintro ⟨existing, hrow, hread, hvalid, hcase⟩
    refine bind_ok.mpr ⟨existing, fetchRequiredRun_ok.mpr ⟨_, hrow, hread⟩,
      bind_ok.mpr ⟨(), hvalid, ?_⟩⟩
    rcases hcase with ⟨hresult, stored, hcommitted, rfl⟩ |
      ⟨hresult, hrepeat, ⟨report, hrebuild⟩, hevents, hruns, rfl⟩
    · rw [if_neg (by rw [hresult]; exact Bool.noConfusion)]
      exact commitNewResult_ok.mpr ⟨stored, hcommitted, rfl⟩
    · rw [if_pos hresult]
      refine bind_ok.mpr ⟨(), reject_ok.mpr (by rw [hrepeat]; exact Bool.noConfusion),
        bind_ok.mpr ⟨(s'.projections, report), hrebuild, ?_⟩⟩
      cases s'
      cases hevents
      cases hruns
      rfl

/-- what the checks of a bundle say of its result -/
structure ValidBundle (existing : StoredReconciliationRun F) (bundle : NewReconciliationResult F) :
    Prop where
  route : sameRoute bundle.result existing.request
  fresh : existing.updatedAt ≤ bundle.eventMetadata.createdAt
  metadata : bundle.eventMetadata.eventType = "reconciliation.result" ∧
    bundle.eventMetadata.accountId = some bundle.result.accountId
  ordered : OrderedResult bundle.result

theorem validateResultBundle_ok (h : validateResultBundle existing bundle = .ok ()) :
    ValidBundle existing bundle := by
  unfold validateResultBundle at h
  obtain ⟨_, hroute, h⟩ := bind_ok.mp h
  obtain ⟨_, -, h⟩ := bind_ok.mp h
  obtain ⟨_, -, h⟩ := bind_ok.mp h
  obtain ⟨_, hfresh, h⟩ := bind_ok.mp h
  obtain ⟨_, hmetadata, h⟩ := bind_ok.mp h
  obtain ⟨_, hsets, -⟩ := bind_ok.mp h
  exact ⟨not_not.mp (reject_ok.mp hroute), not_lt.mp (reject_ok.mp hfresh),
    validateEventMetadata_ok hmetadata, validateResultSets_ok hsets⟩

/-- what the result is applied with -/
def appliedBundle (existing : StoredReconciliationRun F) (bundle : NewReconciliationResult F) :
    AppliedResult F :=
  ⟨existing.request, bundle.result, bundle.evaluation, bundle.completeness⟩

variable {stored : StoredReconciliationRun F}

theorem CommittedResult.appliedBy (h : CommittedResult digests s s' existing bundle stored)
    (hget : s.runs.get existing.request.requestId = some existing.toRunRow)
    (hnone : existing.result = none) {event : StoredCoreEvent F} {r : AppliedResult F} :
    AppliedBy s'.runs event r ↔ AppliedBy s.runs event r ∨
      (bundle.eventMetadata.eventId = event.metadata.eventId ∧
        event.payload = .result bundle.result ∧ r = appliedBundle existing bundle) := by
  have hput := h.put
  constructor
  · rintro ⟨row, hrow, columns, hcolumns, hid, hpayload, rfl⟩
    rcases (Table.mem_put hput hget).mp hrow with rfl | ⟨hrow, -⟩
    · cases hcolumns
      exact .inr ⟨hid, hpayload, rfl⟩
    · exact .inl ⟨row, hrow, columns, hcolumns, hid, hpayload, rfl⟩
  · rintro (⟨row, hrow, columns, hcolumns, hid, hpayload, rfl⟩ | ⟨hid, hpayload, rfl⟩)
    · refine ⟨row, (Table.mem_put hput hget).mpr (.inr ⟨hrow, fun hkey => ?_⟩), columns, hcolumns, hid,
        hpayload, rfl⟩
      have hgot : s.runs.get existing.request.requestId = some row := Table.get_eq_some.mpr ⟨hrow, hkey⟩
      rw [hget] at hgot
      rw [← Option.some.inj hgot, hnone] at hcolumns
      cases hcolumns
    · exact ⟨_, (Table.mem_put hput hget).mpr (.inl rfl), _, rfl, hid, hpayload, rfl⟩

theorem SoundEvents.unclaimed {table : EventTable F} {runs : ReconciliationRuns F}
    (h : SoundEvents digests table runs) {event : StoredCoreEvent F} {r : AppliedResult F}
    (hfree : table.get event.metadata.eventId = none) : ¬ AppliedBy runs event r := by
  intro happlied
  obtain ⟨run, columns, -, -, -, hid, -, stored, hstored, -⟩ := happlied.run h
  have hfound := hstored.found
  rw [hid, hfree] at hfound
  cases hfound

theorem Recorded.extends {table table' : EventTable F} {runs : ReconciliationRuns F}
    {events : List (StoredCoreEvent F)} {results : Results F} (hext : Extends table table')
    (h : Recorded table runs events results) : Recorded table' runs events results where
  readable := h.readable.extends hext
  documented x hx := by
    obtain ⟨row, hrow, columns, event, hcolumns, hx, hevent, hreceived⟩ := h.documented x hx
    exact ⟨row, hrow, columns, event, hcolumns, hx, hext _ _ hevent, hreceived⟩
  known := h.known
  brought := h.brought

theorem CommittedResult.results (hok : CommittedResult digests s s' existing bundle stored)
    (h : SoundEvents digests s.events s.runs)
    (hget : s.runs.get existing.request.requestId = some existing.toRunRow)
    (hnone : existing.result = none) :
    appliedResults s'.runs
      (s.events.rows ++ [⟨bundle.eventMetadata, .result bundle.result⟩]) =
      insert (appliedBundle existing bundle, bundle.eventMetadata.receivedAt)
        (appliedResults s.runs s.events.rows) := by
  have hfree := Table.insert_fresh hok.inserted
  ext x
  rw [mem_appliedResults_append, Set.mem_insert_iff, or_comm]
  refine or_congr ?_ ?_
  · rw [hok.appliedBy hget hnone]
    constructor
    · rintro ⟨hold | ⟨-, -, hx⟩, hreceived⟩
      · exact absurd hold (h.unclaimed hfree)
      · exact Prod.ext hx hreceived
    · rintro rfl
      exact ⟨.inr ⟨rfl, rfl, rfl⟩, rfl⟩
  · constructor
    · rintro ⟨e, he, happlied, hreceived⟩
      refine ⟨e, he, ?_, hreceived⟩
      rcases (hok.appliedBy hget hnone).mp happlied with hold | ⟨hid, -⟩
      · exact hold
      · have hgot : s.events.get bundle.eventMetadata.eventId = some e :=
          Table.get_eq_some.mpr ⟨he, hid.symm⟩
        rw [hfree] at hgot
        cases hgot
    · rintro ⟨e, he, happlied, hreceived⟩
      exact ⟨e, he, (hok.appliedBy hget hnone).mpr (.inl happlied), hreceived⟩

theorem Kept.commitNew (hdist : digests.Distinct) (h : Kept digests s)
    (hget : s.runs.get existing.request.requestId = some existing.toRunRow)
    (hvalid : ValidBundle existing bundle) (hnone : existing.result = none)
    (hok : CommittedResult digests s s' existing bundle stored) : Kept digests s' := by
  have hrows := Table.ofRows_rows hok.inserted
  have hext : Extends s.events s'.events := fun _ _ hgot => Table.get_insert_of_some hok.inserted hgot
  have hrouted : RoutedEvent (F := F) ⟨bundle.eventMetadata, .result bundle.result⟩ := by
    refine ⟨hvalid.metadata.1.symm, fun value accountId hvalue => ?_, fun value hvalue => ?_,
      fun r hr => ?_⟩
    · cases hvalue
    · cases hvalue
    · cases hr
      exact hvalid.metadata.2
  have hallRouted : ∀ e ∈ s'.events.rows, RoutedEvent e := by
    intro e he
    rw [hrows] at he
    rcases List.mem_append.mp he with he | he
    · exact h.routed e he
    · rw [List.mem_singleton.mp he]
      exact hrouted
  have hcoherent : CoherentEvents digests
      (s.events.rows ++ [⟨bundle.eventMetadata, .result bundle.result⟩]) := by
    refine h.coherent.append (hrouted.owned fun r hr => ?_) fun accountId haccount => ?_
    · cases hr
      exact hvalid.ordered
    · have hown := (validateAccountDurable_ok hdist hallRouted).mp hok.durable
      have hsame : bundle.result.accountId = accountId :=
        Option.some.inj (hvalid.metadata.2.symm.trans haccount)
      rw [hrows, hsame] at hown
      exact hown
  have hrecorded := (h.recorded fun _ he => he).extends hext
  have hresults := hok.results h.toSoundEvents hget hnone
  have halike : AlikeResults (insert (appliedBundle existing bundle, bundle.eventMetadata.receivedAt)
      (appliedResults s.runs s.events.rows)) := by
    refine alikeResults hcoherent fun x hx => ?_
    rw [resultFacts_insert]
    rcases hx with rfl | hx
    · exact Set.mem_insert _ _
    · exact Set.mem_insert_of_mem _ (hrecorded.brought x hx)
  obtain ⟨hprojected, hbars⟩ :=
    h.reached.projected.result (r := appliedBundle existing bundle) hrecorded h.coherent hcoherent
      halike hok.applied
  have hfree' := h.reached.projected.result_undisputed (r := appliedBundle existing bundle) hdist
    hrecorded h.coherent hvalid.ordered h.reached.decided hok.applied
  obtain ⟨row, hrow, hread⟩ := fetchRequiredRun_ok.mp hok.fetched
  have hown : row = existing.toRunRow.settled bundle := by
    have hkey : (existing.toRunRow.settled bundle).request.requestId = bundle.result.requestId :=
      hvalid.route.1.symm
    rw [← hkey, Table.get_put_self hok.put hget] at hrow
    exact (Option.some.inj hrow).symm
  rw [hown] at hread
  refine ⟨⟨hallRouted, ?_, (h.readable.extends hext).put hok.put hget hread, fun e he r hr => ?_⟩,
    ⟨?_, ?_⟩, ?_⟩
  · rw [hrows]
    exact hcoherent
  · rw [hrows] at he
    rcases List.mem_append.mp he with he | he
    · obtain ⟨q, hq⟩ := h.known e he r hr
      exact ⟨q, (hok.appliedBy hget hnone).mpr (.inl hq)⟩
    · rw [List.mem_singleton.mp he]
      exact ⟨_, (hok.appliedBy hget hnone).mpr (.inr ⟨rfl, rfl, rfl⟩)⟩
  · rw [hrows, hresults]
    exact hprojected
  · rw [hrows]
    refine h.reached.decided.append hfree' (account_keys bundle.result) hvalid.ordered.symbols.keys
  · rw [hrows, hbars]
    exact h.bars.other rfl

theorem Kept.commit (hdist : digests.Distinct) (h : Kept digests s)
    (hok : commitReconciliationResult digests s bundle = .ok (s', outcome)) : Kept digests s' := by
  obtain ⟨existing, hget, hread, hvalid, hcase⟩ := commitReconciliationResult_ok.mp hok
  have hbundle := validateResultBundle_ok hvalid
  have hgot : s.runs.get existing.request.requestId = some existing.toRunRow := by
    rw [Table.key_of_get hget]
    exact hget
  rcases hcase with ⟨hnone, stored, hcommitted, -⟩ | ⟨-, -, ⟨report, hrebuild⟩, hevents, hruns, -⟩
  · exact h.commitNew hdist hgot hbundle hnone hcommitted
  · obtain ⟨hreached, hbars⟩ :=
      (h.reached.rebuildsAccount hdist h.toSoundEvents existing.request.accountId).2 _ _ hrebuild
    have hstore : s' = { s with projections := s'.projections } := by
      cases s'
      cases hevents
      cases hruns
      rfl
    rw [hstore]
    refine ⟨h.toSoundEvents, hreached, ?_⟩
    show BarsShown s.events.rows s'.projections.bars
    rw [hbars]
    exact h.bars

end

end Sinan.Projection
