import Sinan.Projection.Evidence

/-!
# Projections: reading a run and a checkpoint back

A run is readable if its row, the events it points to and its evidence fit together; a checkpoint is
readable if the runs behind it are, and the tables show its full sets.  `Projected.fetchCheckpoint` says
that the state which the events call for always passes the checks of the reader.
-/

set_option linter.unusedSectionVars false

namespace Sinan.Projection

open Lib Store Reconciliation

variable {F D : Type} [DecidableEq F] [DecidableEq D] {digests : Digests F D}

/-! ## a run -/

section
variable {events events' : EventTable F} {row : RunRow F} {run : StoredReconciliationRun F}

/-- what a reader of the run finds in order -/
structure ReadableRun (events : EventTable F) (row : RunRow F) (requestEvent : StoredCoreEvent F)
    (resultEvent : Option (StoredCoreEvent F)) : Prop where
  request : validateRequest row.request row.requestedAt = .ok ()
  requestFound : events.get row.requestEventId = some requestEvent
  requestStored : validateStoredEvent requestEvent "reconciliation.request" row.request.requestId
    row.request.accountId row.request.terminalId row.request.clientId row.requestedAt
    (.request row.request) = .ok ()
  resultFound : fetchResultEvent events row = .ok resultEvent
  manual : validateManualColumns row = .ok ()
  times : ¬ (row.createdAt ≠ requestEvent.metadata.createdAt ∨ row.createdAt < row.requestedAt ∨
    row.updatedAt < row.createdAt ∨ statusTimeValid row resultEvent = false)
  state : validRunState row = true

theorem readRun_ok : readRun events row = .ok run ↔ ∃ requestEvent resultEvent,
    ReadableRun events row requestEvent resultEvent ∧
      run = { row with requestEvent := requestEvent, resultEvent := resultEvent } := by
  unfold readRun
  simp only [bind_ok, pure_ok, exists_unit, mapError_ok, need_ok, reject_ok]
  constructor
  · rintro ⟨hrequest, requestEvent, hfound, hstored, resultEvent, hresult, hmanual, htimes, hstate, rfl⟩
    exact ⟨requestEvent, resultEvent, ⟨hrequest, hfound, hstored, hresult, hmanual, htimes,
      Bool.eq_true_of_not_eq_false hstate⟩, rfl⟩
  · rintro ⟨requestEvent, resultEvent, h, rfl⟩
    refine ⟨h.request, requestEvent, h.requestFound, h.requestStored, resultEvent, h.resultFound,
      h.manual, h.times, ?_, rfl⟩
    rw [h.state]
    exact Bool.noConfusion

theorem readRun_row (h : readRun events row = .ok run) : run.toRunRow = row := by
  obtain ⟨_, _, _, rfl⟩ := readRun_ok.mp h
  rfl

/-- a table that has at least the events of another one -/
def Extends (events events' : EventTable F) : Prop :=
  ∀ eventId event, events.get eventId = some event → events'.get eventId = some event

theorem Extends.refl (events : EventTable F) : Extends events events := fun _ _ h => h

theorem Extends.trans {events'' : EventTable F} (h : Extends events events')
    (h' : Extends events' events'') : Extends events events'' := fun _ _ he => h' _ _ (h _ _ he)

theorem fetchResultEvent_extends (hext : Extends events events')
    {resultEvent : Option (StoredCoreEvent F)} (h : fetchResultEvent events row = .ok resultEvent) :
    fetchResultEvent events' row = .ok resultEvent := by
  unfold fetchResultEvent at h ⊢
  cases hresult : row.result with
  | none =>
    rw [hresult] at h
    exact h
  | some columns =>
    rw [hresult] at h
    simp only [bind_ok, pure_ok, exists_unit, mapError_ok, need_ok] at h ⊢
    obtain ⟨hcolumns, event, hevent, hrest⟩ := h
    exact ⟨hcolumns, event, hext _ _ hevent, hrest⟩

theorem readRun_extends (hext : Extends events events') (h : readRun events row = .ok run) :
    readRun events' row = .ok run := by
  obtain ⟨requestEvent, resultEvent, hread, rfl⟩ := readRun_ok.mp h
  exact readRun_ok.mpr ⟨requestEvent, resultEvent,
    { hread with
      requestFound := hext _ _ hread.requestFound
      resultFound := fetchResultEvent_extends hext hread.resultFound }, rfl⟩

/-- what the readers have checked of a result -/
structure ReadableResult (events : EventTable F) (row : RunRow F) (columns : ResultColumns F)
    (event : StoredCoreEvent F) : Prop where
  route : sameRoute columns.result row.request
  sets : validateResultSets columns.result row.request.commandIds = .ok ()
  found : events.get columns.eventId = some event
  stored : validateStoredEvent event "reconciliation.result" columns.result.requestId
    columns.result.accountId columns.result.terminalId columns.result.clientId
    columns.result.observedAt (.result columns.result) = .ok ()
  completed : columns.evaluation.disposition = .completed → row.status = .completed

theorem readRun_result (h : readRun events row = .ok run) {columns : ResultColumns F}
    (hresult : row.result = some columns) : ∃ event, ReadableResult events row columns event ∧
      run.resultEvent = some event := by
  obtain ⟨requestEvent, resultEvent, hread, rfl⟩ := readRun_ok.mp h
  have hfound := hread.resultFound
  have hmanual := hread.manual
  have hstate := hread.state
  unfold fetchResultEvent validateResultColumns at hfound
  rw [hresult] at hfound
  simp only [bind_ok, pure_ok, exists_unit, mapError_ok, need_ok, reject_ok, not_not] at hfound
  obtain ⟨⟨hroute, hsets, -⟩, event, hevent, hstored, rfl⟩ := hfound
  refine ⟨event, ⟨hroute, hsets, hevent, hstored, fun hdone => ?_⟩, rfl⟩
  unfold validateManualColumns at hmanual
  cases hescalated : row.manual with
  | some manual =>
    rw [hescalated] at hmanual
    simp only [bind_ok, exists_unit, reject_ok, not_or, not_exists, not_and, not_not] at hmanual
    have hpending := (hmanual.1.2.2.2.2.2.2 columns hresult).1
    rw [hdone] at hpending
    cases hpending
  | none =>
    rw [hescalated] at hmanual
    simp only [reject_ok] at hmanual
    unfold validRunState at hstate
    cases hstatus : row.status with
    | requested =>
      rw [hstatus, hresult] at hstate
      cases hstate
    | pendingEvidence =>
      rw [hstatus, hresult] at hstate
      simp only [Option.any_some, hdone, Bool.and_eq_true] at hstate
      exact absurd hstate.1 (by decide)
    | completed => rfl
    | manualReconciliationRequired => exact absurd hstatus hmanual

theorem validateStoredEvent_times {event : StoredCoreEvent F} {eventType : String}
    {requestId : RequestId} {accountId : AccountId} {terminalId : Option TerminalId}
    {clientId : Option ClientId} {eventAt : Int} {payload : EventPayload F}
    (h : validateStoredEvent event eventType requestId accountId terminalId clientId eventAt payload =
      .ok ()) :
    0 ≤ eventAt ∧ eventAt ≤ event.metadata.receivedAt ∧ event.payload = payload ∧
      event.metadata.eventType = eventType ∧ event.metadata.accountId = some accountId := by
  unfold validateStoredEvent validateEventMetadata at h
  simp only [bind_ok, exists_unit, reject_ok, not_or, not_not, not_lt] at h
  obtain ⟨⟨htype, -, -, hat, hnonneg, hreceived, -, ⟨haccount, -⟩, -⟩, hpayload⟩ := h
  rw [hat] at hnonneg hreceived
  exact ⟨hnonneg, hreceived, hpayload, htype, haccount⟩

/-- the members of one kind as the reader demands them -/
structure OrderedMembers {S : Type} (key : S → AccountId × String) (observedAt : S → Int)
    (result : ReconciliationResult F) (values : List S) : Prop where
  sorted : (values.map fun s => (key s).2).Pairwise (· < ·)
  owned : ∀ s ∈ values, (key s).1 = result.accountId ∧ observedAt s = result.observedAt

variable {result : ReconciliationResult F}

theorem validateResultMembers_ok {S : Type} {requestId : RequestId} {reason : String}
    {values : List S} {key : S → AccountId × String} {observedAt : S → Int}
    (h : validateResultMembers requestId reason values key observedAt result = .ok ()) :
    OrderedMembers key observedAt result values := by
  unfold validateResultMembers strictlySortedUniqueBy at h
  simp only [reject_ok, not_or, not_exists, not_and, not_not, Bool.not_eq_false,
    decide_eq_true_eq] at h
  exact ⟨List.isChain_iff_pairwise.mp h.1, fun s hs => (h.2 s hs).2⟩

theorem OrderedMembers.keys {S : Type} {key : S → AccountId × String} {observedAt : S → Int}
    {values : List S} (h : OrderedMembers key observedAt result values) :
    (values.map key).Nodup := by
  refine List.Nodup.of_map Prod.snd ?_
  rw [List.map_map]
  exact h.sorted.imp fun hlt => ne_of_lt hlt

/-- the snapshots of a readable result -/
structure OrderedResult (result : ReconciliationResult F) : Prop where
  account : ∀ account ∈ result.account, account.accountId = result.accountId ∧
    account.observedAt = result.observedAt
  positions : OrderedMembers positionKey PositionSnapshot.observedAt result result.positions
  orders : OrderedMembers orderKey OrderSnapshot.observedAt result result.orders
  symbols : OrderedMembers symbolKey SymbolMetadataSnapshot.observedAt result result.symbolMetadata

theorem validateResultSets_ok {target : Option (List CommandId)}
    (h : validateResultSets result target = .ok ()) : OrderedResult result := by
  unfold validateResultSets at h
  simp only [bind_ok, exists_unit, reject_ok, not_exists, not_and, not_or, not_not] at h
  obtain ⟨haccount, hpositions, horders, hsymbols, -⟩ := h
  exact ⟨haccount, validateResultMembers_ok hpositions, validateResultMembers_ok horders,
    validateResultMembers_ok hsymbols⟩

end

/-! ## the runs behind a checkpoint -/

section
variable {events : EventTable F} {runs : ReconciliationRuns F}

/-- every run is readable -/
def RunsReadable (events : EventTable F) (runs : ReconciliationRuns F) : Prop :=
  ∀ row ∈ runs.rows, ∃ run, readRun events row = .ok run

/-- a result is one of a run, received with the run's event -/
def Documented (events : EventTable F) (runs : ReconciliationRuns F) (x : AppliedResult F × Int) :
    Prop :=
  ∃ row ∈ runs.rows, ∃ columns event, row.result = some columns ∧
    x.1 = ⟨row.request, columns.result, columns.evaluation, columns.completeness⟩ ∧
    events.get columns.eventId = some event ∧ x.2 = event.metadata.receivedAt

/-- the run that a result is one of, as it reads -/
structure RunOf (events : EventTable F) (runs : ReconciliationRuns F) (x : AppliedResult F × Int)
    (run : StoredReconciliationRun F) (columns : ResultColumns F) : Prop where
  mem : run.toRunRow ∈ runs.rows
  read : readRun events run.toRunRow = .ok run
  result : run.result = some columns
  applied : x.1 = ⟨run.request, columns.result, columns.evaluation, columns.completeness⟩
  route : sameRoute columns.result run.request
  ordered : OrderedResult columns.result
  nonneg : 0 ≤ columns.result.observedAt
  received : columns.result.observedAt ≤ x.2
  completed : columns.evaluation.disposition = .completed → run.status = .completed

theorem Documented.run (hreadable : RunsReadable events runs) {x : AppliedResult F × Int}
    (h : Documented events runs x) : ∃ run columns, RunOf events runs x run columns := by
  obtain ⟨row, hrow, columns, event, hresult, happlied, hevent, hreceived⟩ := h
  obtain ⟨run, hread⟩ := hreadable row hrow
  obtain ⟨event', hcolumns, -⟩ := readRun_result hread hresult
  have hsame := readRun_row hread
  subst hsame
  have hfound := hcolumns.found
  rw [hevent] at hfound
  cases hfound
  obtain ⟨hnonneg, hlate, -⟩ := validateStoredEvent_times hcolumns.stored
  rw [← hreceived] at hlate
  exact ⟨run, columns, hrow, hread, hresult, happlied, hcolumns.route,
    validateResultSets_ok hcolumns.sets, hnonneg, hlate, hcolumns.completed⟩

theorem fetchRequiredRun_ok {requestId : RequestId} {missing : ProjectionError}
    {run : StoredReconciliationRun F} :
    fetchRequiredRun events runs requestId missing = .ok run ↔
      ∃ row, runs.get requestId = some row ∧ readRun events row = .ok run := by
  unfold fetchRequiredRun fetchReconciliationRun
  cases runs.get requestId with
  | none =>
    constructor
    · intro h
      cases h
    · rintro ⟨row, hrow, -⟩
      cases hrow
  | some row =>
    simp only [bind_ok, pure_ok, need_ok]
    constructor
    · rintro ⟨_, ⟨run', hread, rfl⟩, hrun⟩
      cases hrun
      exact ⟨row, rfl, hread⟩
    · rintro ⟨row', hrow, hread⟩
      cases hrow
      exact ⟨some run, ⟨run, hread, rfl⟩, rfl⟩

theorem RunOf.fetch {x : AppliedResult F × Int} {run : StoredReconciliationRun F}
    {columns : ResultColumns F} (h : RunOf events runs x run columns) (missing : ProjectionError) :
    fetchRequiredRun events runs run.request.requestId missing = .ok run :=
  fetchRequiredRun_ok.mpr ⟨run.toRunRow, Table.get_eq_some.mpr ⟨h.mem, rfl⟩, h.read⟩

theorem fetchReconciliationRunsAt_ok (hreadable : RunsReadable events runs)
    (checkpoint : AccountReconciliationCheckpoint D) (observedAt : Int) :
    ∃ found, fetchReconciliationRunsAt events runs checkpoint observedAt = .ok found ∧
      ∀ run, run.toRunRow ∈ runs.rows → readRun events run.toRunRow = .ok run →
        run.request.accountId = checkpoint.accountId →
        (run.result.map fun columns => columns.result.observedAt) = some observedAt →
        run ∈ found := by
  have hall : ∀ row ∈ sortBy (fun row : RunRow F => row.request.requestId)
      (runs.rows.filter fun row => decide (row.request.accountId = checkpoint.accountId ∧
        (row.result.map fun columns => columns.result.observedAt) = some observedAt)),
      ∃ run, fetchRequiredRun events runs row.request.requestId
        (checkpointCorrupt checkpoint "readiness source run disappeared") = .ok run := by
    intro row hrow
    have hmem := (List.mem_filter.mp (mem_sortBy.mp hrow)).1
    obtain ⟨run, hread⟩ := hreadable row hmem
    exact ⟨run, fetchRequiredRun_ok.mpr ⟨row, Table.get_eq_some.mpr ⟨hmem, rfl⟩, hread⟩⟩
  obtain ⟨found, hfound⟩ := exists_forall₂ hall
  refine ⟨found, collect_ok.mpr hfound, fun run hmem hread haccount hat => ?_⟩
  have hin : run.toRunRow ∈ sortBy (fun row : RunRow F => row.request.requestId)
      (runs.rows.filter fun row => decide (row.request.accountId = checkpoint.accountId ∧
        (row.result.map fun columns => columns.result.observedAt) = some observedAt)) :=
    mem_sortBy.mpr (List.mem_filter.mpr ⟨hmem, decide_eq_true ⟨haccount, hat⟩⟩)
  obtain ⟨run', hrun', hfetch⟩ := forall₂_mem_right hfound.flip hin
  obtain ⟨row, hrow, hread'⟩ := fetchRequiredRun_ok.mp hfetch
  have hself : runs.get run.request.requestId = some run.toRunRow :=
    Table.get_eq_some.mpr ⟨hmem, rfl⟩
  rw [hself] at hrow
  cases hrow
  rw [hread] at hread'
  cases hread'
  exact hrun'

variable {results : Results F} {c : AccountReconciliationCheckpoint D}

theorem requireReadiness_ok (hreadable : RunsReadable events runs)
    (hdocumented : ∀ x ∈ results, Documented events runs x) {refreshedAt : Option Int}
    {time : AppliedResult F × Int → Option Int} {proves : StoredReconciliationRun F → Bool}
    (hlast : IsLast (timesOf results c.accountId time) refreshedAt)
    (hproves : ∀ x ∈ results, ∀ t, time x = some t → ∀ run columns, RunOf events runs x run columns →
      t = x.1.result.observedAt ∧ proves run = true) (reason : String) :
    requireReadiness events runs c refreshedAt proves reason = .ok () := by
  cases refreshedAt with
  | none => rfl
  | some t =>
    obtain ⟨⟨x, hx, howner, htime⟩, -⟩ := hlast
    obtain ⟨run, columns, hrun⟩ := (hdocumented x hx).run hreadable
    obtain ⟨rfl, hprove⟩ := hproves x hx t htime run columns hrun
    obtain ⟨found, hfound, hin⟩ := fetchReconciliationRunsAt_ok hreadable c x.1.result.observedAt
    have hmem : run ∈ found := by
      refine hin run hrun.mem hrun.read ?_ ?_
      · rw [← hrun.route.2.1, ← howner, hrun.applied]
      · rw [hrun.result, hrun.applied]
        rfl
    have hany : found.any proves = true := List.any_eq_true.mpr ⟨run, hmem, hprove⟩
    show (fetchReconciliationRunsAt events runs c x.1.result.observedAt >>= _) = _
    rw [hfound]
    refine reject_ok.mpr ?_
    rw [hany]
    exact Bool.noConfusion

theorem validateCheckpointReadiness_ok {accountId : AccountId} (hreadable : RunsReadable events runs)
    (hdocumented : ∀ x ∈ results, Documented events runs x)
    (h : IsCheckpoint digests results accountId c) :
    validateCheckpointReadiness events runs c = .ok () := by
  obtain ⟨haccount, -, -, -, -, -, hrefreshed, hsymbols, hpending, -⟩ := h
  rw [← haccount] at hrefreshed hsymbols hpending
  unfold validateCheckpointReadiness
  simp only [bind_ok, exists_unit]
  refine ⟨requireReadiness_ok hreadable hdocumented hrefreshed ?_ _,
    requireReadiness_ok hreadable hdocumented hsymbols ?_ _,
    requireReadiness_ok hreadable hdocumented hpending ?_ _⟩
  · intro x hx t htime run columns hrun
    unfold AppliedResult.accountRefresh at htime
    split_ifs at htime with hsome
    cases htime
    refine ⟨rfl, ?_⟩
    rw [hrun.applied] at hsome
    rw [hrun.result]
    exact hsome
  · intro x hx t htime run columns hrun
    unfold AppliedResult.symbolRefresh at htime
    split_ifs at htime with hcomplete
    cases htime
    refine ⟨rfl, ?_⟩
    rw [hrun.applied] at hcomplete
    rw [hrun.result]
    exact hcomplete
  · intro x hx t htime run columns hrun
    unfold AppliedResult.pendingRefresh at htime
    split_ifs at htime with hcomplete
    cases htime
    refine ⟨rfl, ?_⟩
    rw [hrun.applied] at hcomplete
    simp only [Bool.and_eq_true, decide_eq_true_eq] at hcomplete
    obtain ⟨⟨hwide, hdone⟩, hscope⟩ := hcomplete
    unfold provesPendingCommands
    rw [hrun.completed hdone, hrun.result, hwide]
    simp only [Option.any_some, hdone, hscope, decide_true, Bool.and_self]

end

/-! ## the full sets behind a checkpoint -/

section
variable {S : Type} {key : S → AccountId × String} {kind : SetKind D key} {facts : Set S}
  {sets : Set (FullSet AccountId Int S)} {tables : SetTables key}
  {checkpoints : AccountId → Option (AccountReconciliationCheckpoint D)}
  {c : AccountReconciliationCheckpoint D}

theorem memberRows_sorted {accountId : AccountId} {rows : List (MemberRow S)}
    (hrows : membersOf tables accountId = rows)
    (hsorted : (rows.map fun row => (key row.payload).2).Pairwise (· < ·)) :
    memberRows tables accountId = rows := by
  have hkeys : (rows.map fun row => (key row.payload).2).Nodup := hsorted.imp fun hlt => ne_of_lt hlt
  unfold memberRows
  rw [show tables.members.rows.filter (fun row => row.accountId == accountId) = rows from hrows]
  refine eq_of_key_sorted (sortBy_perm _ rows)
    (((sortBy_perm _ rows).map _).nodup_iff.mpr hkeys) (sortBy_pairwise _ rows) ?_
  exact (List.pairwise_map.mp hsorted).imp fun hlt => hlt.le

theorem SetShown.validateMembership (h : SetShown kind facts sets checkpoints tables)
    (hcoherent : CoherentSets kind facts sets)
    (hsorted : ∀ w ∈ sets, (w.members.map fun s => (key s).2).Pairwise (· < ·))
    (hc : checkpoints c.accountId = some c) : validateMembership kind tables c = .ok () := by
  have hlast := h.last c.accountId
  rw [hc] at hlast
  obtain ⟨w, hw⟩ := hlast
  have hids (s : S) : (fun row : MemberRow S => (key row.payload).2)
      (MemberRow.mk c.accountId w.time s) = (key s).2 := rfl
  have hrows : memberRows tables c.accountId = w.members.map (MemberRow.mk c.accountId w.time) := by
    refine memberRows_sorted hw.rows ?_
    rw [List.map_map]
    exact hsorted w hw.mem
  have hvisible : ∀ s ∈ w.members, s ∈ visibleSnapshots kind facts sets := fun s hs =>
    mem_visible_member hw.mem hs fun v hv howner => hw.last v hv (howner.trans hw.owner)
  unfold Projection.validateMembership
  simp only [bind_ok, exists_unit, hrows]
  refine ⟨each_ok.mpr fun row hrow => ?_, reject_ok.mpr ?_, reject_ok.mpr ?_⟩
  · obtain ⟨s, hs, rfl⟩ := List.mem_map.mp hrow
    obtain ⟨howner, hat⟩ := hcoherent.formed w hw.mem s hs
    obtain ⟨y, hy, hle⟩ := h.latest.top (hvisible s hs)
    obtain ⟨hyvisible, hykey⟩ := h.latest.sound hy
    unfold validateMemberRow
    simp only [bind_ok, exists_unit, reject_ok]
    refine ⟨?_, ?_⟩
    · rintro (hmark | htime | haccount)
      · exact hmark hw.watermark.symm
      · exact htime hat
      · exact haccount (howner.trans hw.owner)
    · have hkey : (c.accountId, (key s).2) = key s := Prod.ext (howner.trans hw.owner).symm rfl
      obtain ⟨latest, hlatest, rfl⟩ : ∃ latest, tables.latest.get (key s) = some latest ∧
          latest.payload = y := Option.map_eq_some_iff.mp hy
      rw [hkey, hlatest, Option.all_some, decide_eq_true_iff]
      rintro (hlt | ⟨heq, hdigest⟩)
      · rw [← hat] at hlt
        exact absurd hle (not_le.mpr hlt)
      · have hsame := hcoherent.visible_unambiguous owner_of_key latest.payload hyvisible s
          (hvisible s hs) hykey (heq.trans hat.symm)
        rw [hsame] at hdigest
        exact hdigest rfl
  · rw [List.map_map, hw.hash]
    exact not_not.mpr (congrArg kind.setDigest (List.map_id w.members))
  · rintro ⟨latest, hlatest, howner, hle, hout⟩
    refine hout ?_
    have hget : tables.latest.get (key latest.payload) = some latest :=
      Table.get_eq_some.mpr ⟨hlatest, rfl⟩
    obtain ⟨hvis, -⟩ := h.latest.sound
      (show shown tables.latest (key latest.payload) = some latest.payload by
        rw [shown, hget]
        rfl)
    rw [List.map_map]
    rcases hvis with ⟨_, hlater⟩ | ⟨v, hv, hmember, hvlast⟩
    · have hlt := hlater w hw.mem (hw.owner.trans howner.symm)
      rw [hw.watermark] at hle
      exact absurd hle (not_le.mpr hlt)
    · have hvo : v.owner = w.owner := by
        rw [← (hcoherent.formed v hv _ hmember).1, howner, hw.owner]
      have hat : v.time = w.time := by
        refine le_antisymm (hw.last v hv (hvo.trans hw.owner)) ?_
        exact hvlast w hw.mem hvo.symm
      rw [hcoherent.alike v hv w hw.mem hvo hat] at hmember
      exact List.mem_map_of_mem hmember

end

/-! ## a checkpoint -/

section
variable {table : EventTable F} {runs : ReconciliationRuns F} {events : List (StoredCoreEvent F)}
  {results : Results F} {p : Projections F D}

/-- the runs know the results that the events bring, and nothing else -/
structure Recorded (table : EventTable F) (runs : ReconciliationRuns F)
    (events : List (StoredCoreEvent F)) (results : Results F) : Prop where
  readable : RunsReadable table runs
  documented : ∀ x ∈ results, Documented table runs x
  known : ∀ r ∈ resultFacts events, ∃ x ∈ results, x.1.result = r
  brought : ∀ x ∈ results, x.1.result ∈ resultFacts events

theorem Recorded.ordered (h : Recorded table runs events results) {r : ReconciliationResult F}
    (hr : r ∈ resultFacts events) : OrderedResult r := by
  obtain ⟨x, hx, rfl⟩ := h.known r hr
  obtain ⟨run, columns, hrun⟩ := (h.documented x hx).run h.readable
  rw [hrun.applied]
  exact hrun.ordered

theorem alikeResults (hcoherent : CoherentEvents digests events)
    (hbrought : ∀ x ∈ results, x.1.result ∈ resultFacts events) : AlikeResults results := by
  intro x hx y hy howner htime
  exact ⟨hcoherent.positions.alike _ ⟨_, hbrought x hx, rfl⟩ _ ⟨_, hbrought y hy, rfl⟩ howner htime,
    hcoherent.orders.alike _ ⟨_, hbrought x hx, rfl⟩ _ ⟨_, hbrought y hy, rfl⟩ howner htime⟩

theorem Recorded.alike (h : Recorded table runs events results)
    (hcoherent : CoherentEvents digests events) : AlikeResults results :=
  alikeResults hcoherent h.brought

theorem validateCheckpointTimes_ok {accountId : AccountId} {c : AccountReconciliationCheckpoint D}
    (hrecorded : Recorded table runs events results) (h : IsCheckpoint digests results accountId c) :
    validateCheckpointTimes c = .ok () := by
  have htimes : ∀ x ∈ results, 0 ≤ x.1.result.observedAt ∧ x.1.result.observedAt ≤ x.2 := by
    intro x hx
    obtain ⟨run, columns, hrun⟩ := (hrecorded.documented x hx).run hrecorded.readable
    rw [hrun.applied]
    exact ⟨hrun.nonneg, hrun.received⟩
  obtain ⟨source, hsource⟩ := h.source
  have hnonneg : 0 ≤ c.resultObservedAt := hsource.observedAt ▸ (htimes source hsource.mem).1
  have hrefresh (time : AppliedResult F × Int → Option Int) (value : Option Int)
      (hlast : IsLast (timesOf results accountId time) value)
      (htime : ∀ x t, time x = some t → t = x.1.result.observedAt) (t : Int) (ht : value = some t) :
      0 ≤ t ∧ t ≤ c.resultObservedAt := by
    subst ht
    obtain ⟨⟨x, hx, howner, hxt⟩, -⟩ := hlast
    rw [htime x t hxt]
    exact ⟨(htimes x hx).1, h.top x hx howner⟩
  refine reject_ok.mpr ?_
  rintro (hneg | hlate | hpositions | horders | ⟨value, hvalue, hout⟩)
  · exact absurd hnonneg (not_le.mpr hneg)
  · refine absurd hlate (not_lt.mpr ?_)
    rw [← hsource.observedAt]
    exact (htimes source hsource.mem).2.trans
      (h.updated.2 ⟨source, hsource.mem, hsource.account.trans h.account, rfl⟩)
  · exact hpositions h.positionsAt
  · exact horders h.ordersAt
  · have hin : 0 ≤ value ∧ value ≤ c.resultObservedAt := by
      simp only [List.mem_filterMap, List.mem_cons, List.not_mem_nil, or_false, id_eq] at hvalue
      obtain ⟨o, ho, hov⟩ := hvalue
      rcases ho with rfl | rfl | rfl | rfl | rfl
      · refine hrefresh _ _ h.accountRefreshed (fun x t ht => ?_) value hov
        unfold AppliedResult.accountRefresh at ht
        split_ifs at ht
        exact (Option.some.inj ht).symm
      · rw [h.positionsAt] at hov
        cases hov
        exact ⟨hnonneg, le_rfl⟩
      · rw [h.ordersAt] at hov
        cases hov
        exact ⟨hnonneg, le_rfl⟩
      · refine hrefresh _ _ h.symbolsRefreshed (fun x t ht => ?_) value hov
        unfold AppliedResult.symbolRefresh at ht
        split_ifs at ht
        exact (Option.some.inj ht).symm
      · refine hrefresh _ _ h.pendingRefreshed (fun x t ht => ?_) value hov
        unfold AppliedResult.pendingRefresh at ht
        split_ifs at ht
        exact (Option.some.inj ht).symm
    rcases hout with hlt | hlt
    · exact absurd hin.1 (not_le.mpr hlt)
    · exact absurd hin.2 (not_le.mpr hlt)

theorem Projected.fetchCheckpoint (h : Projected digests events results p)
    (hrecorded : Recorded table runs events results) (hcoherent : CoherentEvents digests events)
    (accountId : AccountId) :
    fetchCheckpoint digests table runs p accountId = .ok (p.checkpoints.get accountId) := by
  unfold Projection.fetchCheckpoint
  have hshown := h.checkpoints accountId
  cases hget : p.checkpoints.get accountId with
  | none => rfl
  | some c =>
    rw [hget] at hshown
    have hcheckpoint : IsCheckpoint digests results accountId c := hshown
    have haccount := hcheckpoint.account
    have hown : p.checkpoints.get c.accountId = some c := by
      rw [haccount]
      exact hget
    obtain ⟨x, hx⟩ := hcheckpoint.source
    obtain ⟨run, columns, hrun⟩ := (hrecorded.documented x hx.mem).run hrecorded.readable
    have hresult : x.1.result = columns.result := by rw [hrun.applied]
    have hsourceRun : fetchRequiredRun table runs c.sourceRequestId
        (checkpointCorrupt c "source reconciliation run is missing") = .ok run := by
      rw [← hx.requestId, hresult, hrun.route.1]
      exact hrun.fetch _
    have hsource : validateCheckpointSource digests c run = .ok () := by
      unfold validateCheckpointSource
      rw [hrun.result]
      simp only [bind_ok, exists_unit, reject_ok, need_ok, Option.some.injEq, exists_eq_left',
        not_or, not_not, Option.map_some]
      have hpositions := hx.positions
      have horders := hx.orders
      have hat := hx.observedAt
      have howner := hx.account
      rw [hresult] at hpositions horders hat howner
      exact ⟨⟨hrun.route.2.1.symm.trans howner, hat⟩, hpositions, horders⟩
    have hpositions : validateMembership (positionKind digests) p.positions c = .ok () := by
      refine h.positions.validateMembership hcoherent.positions ?_ hown
      rintro w ⟨r, hr, rfl⟩
      exact (hrecorded.ordered hr).positions.sorted
    have horders : validateMembership (orderKind digests) p.orders c = .ok () := by
      refine h.orders.validateMembership hcoherent.orders ?_ hown
      rintro w ⟨r, hr, rfl⟩
      exact (hrecorded.ordered hr).orders.sorted
    have hintegrity : validateCheckpointIntegrity digests table runs p c = .ok () := by
      unfold validateCheckpointIntegrity
      simp only [bind_ok, exists_unit]
      exact ⟨validateCheckpointTimes_ok hrecorded hcheckpoint, run, hsourceRun, hsource,
        validateCheckpointReadiness_ok hrecorded.readable hrecorded.documented hcheckpoint,
        hpositions, horders⟩
    show (validateCheckpointIntegrity digests table runs p c >>= _) = _
    rw [hintegrity]
    rfl

end

end Sinan.Projection
