import Sinan.Projection.Applied

/-!
# Projections: the replay

A replay goes through events in the order of their receive times.  It succeeds exactly if no account or
symbol snapshot contradicts the last one before it (`Replayable`), and then the projections show what
all the events say, the same as any other way to get there.
-/

set_option linter.unusedSectionVars false

namespace Sinan.Projection

open Lib Store Reconciliation

variable {F D : Type} [DecidableEq F] [DecidableEq D] {digests : Digests F D}

/-! ## the bars -/

/-- the row that an event has for the bars -/
def barOf (event : StoredCoreEvent F) : Option (BarRow F) :=
  match event.payload, event.metadata.accountId with
  | .fact (.marketBar bar), some accountId => some ⟨accountId, bar, event.metadata.receivedAt⟩
  | _, _ => none

/-- the bars are those of the events, one row for each -/
structure BarsShown (events : List (StoredCoreEvent F)) (bars : Keyed (barKey (F := F))) : Prop where
  sound : ∀ row ∈ bars.rows, ∃ e ∈ events, barOf e = some row
  top : ∀ e ∈ events, ∀ b, barOf e = some b →
    ∃ row, bars.get (barKey b) = some row ∧ row.payload = b.payload

/-- no event of a bar was received before the one that its row is from -/
def FirstReceived (events : List (StoredCoreEvent F)) (bars : Keyed (barKey (F := F))) : Prop :=
  ∀ row ∈ bars.rows, ∀ e ∈ events, ∀ b, barOf e = some b → barKey b = barKey row →
    row.receivedAt ≤ b.receivedAt

section
variable {events : List (StoredCoreEvent F)} {bars bars' : Keyed (barKey (F := F))}
  {event : StoredCoreEvent F} {b : BarRow F} {decision : ApplyDecision}

theorem barOf_some {event : StoredCoreEvent F} {b : BarRow F} (h : barOf event = some b) :
    event.payload = .fact (.marketBar b.payload) ∧ event.metadata.accountId = some b.accountId ∧
      event.metadata.receivedAt = b.receivedAt := by
  unfold barOf at h
  split at h
  · rename_i bar accountId hpayload haccount
    cases h
    exact ⟨hpayload, haccount, rfl⟩
  · cases h

theorem applyMarketBar_ok :
    applyMarketBar digests bars b = .ok (bars', decision) ↔
      (bars.get (barKey b) = none ∧ bars.insert b = some bars' ∧ decision = .applied) ∨
      ∃ row, bars.get (barKey b) = some row ∧ digests.bar row.payload = digests.bar b.payload ∧
        bars' = bars ∧ decision = .unchanged := by
  unfold applyMarketBar
  cases hget : bars.get (barKey b) with
  | none =>
    simp only [bind_ok, need_ok, pure_ok, Prod.mk.injEq, true_and]
    constructor
    · rintro ⟨inserted, hinsert, rfl, rfl⟩
      exact .inl ⟨hinsert, rfl⟩
    · rintro (⟨hinsert, rfl⟩ | ⟨row, hrow, -⟩)
      · exact ⟨bars', hinsert, rfl, rfl⟩
      · cases hrow
  | some row =>
    simp only [Option.some.injEq, exists_eq_left', reduceCtorEq, false_and, false_or]
    split_ifs with hsame
    · rw [Except.ok.injEq, Prod.mk.injEq]
      exact ⟨fun h => ⟨hsame, h.1.symm, h.2.symm⟩, fun h => ⟨h.2.1.symm, h.2.2.symm⟩⟩
    · exact ⟨fun h => (by cases h), fun h => absurd h.1 hsame⟩

theorem BarsShown.bar (hdist : digests.Distinct) (h : BarsShown events bars)
    (hb : barOf event = some b) (happly : applyMarketBar digests bars b = .ok (bars', decision)) :
    BarsShown (events ++ [event]) bars' := by
  rcases applyMarketBar_ok.mp happly with ⟨hnone, hinsert, -⟩ | ⟨row, hrow, hdigest, rfl, -⟩
  · have hrows := Table.ofRows_rows hinsert
    constructor
    · intro row hrow
      rw [hrows] at hrow
      rcases List.mem_append.mp hrow with hold | hnew
      · obtain ⟨e, he, hrow⟩ := h.sound row hold
        exact ⟨e, List.mem_append_left _ he, hrow⟩
      · rw [List.mem_singleton.mp hnew]
        exact ⟨event, List.mem_append_right _ (List.mem_singleton_self _), hb⟩
    · intro e he b' hb'
      rw [Table.get_insert hinsert]
      rcases List.mem_append.mp he with hold | hnew
      · obtain ⟨row, hrow, hpayload⟩ := h.top e hold b' hb'
        rw [if_neg fun hkey => by rw [← hkey, hnone] at hrow; cases hrow]
        exact ⟨row, hrow, hpayload⟩
      · rw [List.mem_singleton.mp hnew, hb] at hb'
        cases hb'
        exact ⟨b, if_pos rfl, rfl⟩
  · constructor
    · intro row' hrow'
      obtain ⟨e, he, hrow'⟩ := h.sound row' hrow'
      exact ⟨e, List.mem_append_left _ he, hrow'⟩
    · intro e he b' hb'
      rcases List.mem_append.mp he with hold | hnew
      · exact h.top e hold b' hb'
      · rw [List.mem_singleton.mp hnew, hb] at hb'
        cases hb'
        exact ⟨row, hrow, hdist.bar hdigest⟩

theorem BarsShown.other (h : BarsShown events bars) (hnone : barOf event = none) :
    BarsShown (events ++ [event]) bars := by
  constructor
  · intro row hrow
    obtain ⟨e, he, hrow⟩ := h.sound row hrow
    exact ⟨e, List.mem_append_left _ he, hrow⟩
  · intro e he b hb
    rcases List.mem_append.mp he with hold | hnew
    · exact h.top e hold b hb
    · rw [List.mem_singleton.mp hnew, hnone] at hb
      cases hb

theorem FirstReceived.bar (hshown : BarsShown events bars) (h : FirstReceived events bars)
    (hlate : ∀ e ∈ events, e.metadata.receivedAt ≤ event.metadata.receivedAt)
    (hb : barOf event = some b) (happly : applyMarketBar digests bars b = .ok (bars', decision)) :
    FirstReceived (events ++ [event]) bars' := by
  have hold : FirstReceived (events ++ [event]) bars := by
    intro row hrow e he b' hb' hkey
    rcases List.mem_append.mp he with he | he
    · exact h row hrow e he b' hb' hkey
    · obtain ⟨e', he', hrow'⟩ := hshown.sound row hrow
      rw [List.mem_singleton.mp he] at hb'
      rw [← (barOf_some hrow').2.2, ← (barOf_some hb').2.2]
      exact hlate e' he'
  rcases applyMarketBar_ok.mp happly with ⟨hnone, hinsert, -⟩ | ⟨row, hrow, hdigest, rfl, -⟩
  · have hrows := Table.ofRows_rows hinsert
    intro row hrow e he b' hb' hkey
    rw [hrows] at hrow
    rcases List.mem_append.mp hrow with hrow | hrow
    · exact hold row hrow e he b' hb' hkey
    · rw [List.mem_singleton.mp hrow] at hkey ⊢
      rcases List.mem_append.mp he with he | he
      · obtain ⟨row', hrow', -⟩ := hshown.top e he b' hb'
        rw [hkey, hnone] at hrow'
        cases hrow'
      · rw [List.mem_singleton.mp he, hb] at hb'
        cases hb'
        exact le_rfl
  · exact hold

/-- the rows of two tables that show the bars of the same events agree if both are of the first ones -/
theorem BarsShown.get_eq (h : BarsShown events bars) (h' : BarsShown events bars')
    (hfirst' : FirstReceived events bars') :
    bars'.get = bars.get ↔ FirstReceived events bars := by
  have hagree (hfirst : FirstReceived events bars) {k : AccountId × SymbolCode × TimeframeCode × Int}
      {row : BarRow F} (hrow : bars.get k = some row) : bars'.get k = some row := by
    obtain ⟨hmem, rfl⟩ := Table.get_eq_some.mp hrow
    obtain ⟨e, he, hb⟩ := h.sound row hmem
    obtain ⟨row', hrow', hpayload⟩ := h'.top e he row hb
    obtain ⟨hmem', hkey'⟩ := Table.get_eq_some.mp hrow'
    obtain ⟨e', he', hb'⟩ := h'.sound row' hmem'
    have hat : row'.receivedAt = row.receivedAt :=
      le_antisymm (hfirst' row' hmem' e he row hb hkey'.symm) (hfirst row hmem e' he' row' hb' hkey')
    have haccount : row'.accountId = row.accountId := congrArg Prod.fst hkey'
    rw [hrow']
    cases row
    cases row'
    subst hat haccount hpayload
    rfl
  constructor
  · intro hsame row hrow e he b hb hkey
    have hget : bars'.get (barKey row) = some row := by
      rw [hsame]
      exact Table.get_eq_some.mpr ⟨hrow, rfl⟩
    exact hfirst' row (Table.get_eq_some.mp hget).1 e he b hb hkey
  · intro hfirst
    funext k
    apply Option.ext
    intro row
    constructor
    · intro hrow
      obtain ⟨hmem, rfl⟩ := Table.get_eq_some.mp hrow
      obtain ⟨e, he, hb⟩ := h'.sound row hmem
      obtain ⟨row', hrow', -⟩ := h.top e he row hb
      rw [hagree hfirst hrow'] at hrow
      cases hrow
      exact hrow'
    · exact hagree hfirst

end

/-! ## the results of the events -/

/-- the events carry their types and accounts, agree, and belong to readable runs -/
structure SoundEvents (digests : Digests F D) (table : EventTable F) (runs : ReconciliationRuns F) :
    Prop where
  routed : ∀ e ∈ table.rows, RoutedEvent e
  coherent : CoherentEvents digests table.rows
  readable : RunsReadable table runs
  known : ∀ e ∈ table.rows, ∀ result, e.payload = .result result → ∃ r, AppliedBy runs e r

section
variable {table : EventTable F} {runs : ReconciliationRuns F} {events : List (StoredCoreEvent F)}
  {event : StoredCoreEvent F} {r : AppliedResult F} {L M : List (StoredCoreEvent F)}

theorem AppliedBy.result (h : AppliedBy runs event r) : event.payload = .result r.result := by
  obtain ⟨row, _, columns, _, _, hpayload, rfl⟩ := h
  exact hpayload

theorem AppliedBy.run (hsound : SoundEvents digests table runs) (h : AppliedBy runs event r) :
    ∃ run columns, runs.get r.result.requestId = some run.toRunRow ∧
      readRun table run.toRunRow = .ok run ∧ run.result = some columns ∧
      columns.eventId = event.metadata.eventId ∧
      r = ⟨run.request, columns.result, columns.evaluation, columns.completeness⟩ ∧
      ∃ stored, ReadableResult table run.toRunRow columns stored ∧ run.resultEvent = some stored := by
  obtain ⟨row, hrow, columns, hresult, hevent, hpayload, rfl⟩ := h
  obtain ⟨run, hread⟩ := hsound.readable row hrow
  have hsame := readRun_row hread
  subst hsame
  obtain ⟨stored, hstored, hresultEvent⟩ := readRun_result hread hresult
  refine ⟨run, columns, Table.get_eq_some.mpr ⟨hrow, ?_⟩, hread, hresult, hevent, rfl, stored, hstored,
    hresultEvent⟩
  exact hstored.route.1.symm

theorem AppliedBy.unique (hsound : SoundEvents digests table runs) {q : AppliedResult F}
    (h : AppliedBy runs event r) (h' : AppliedBy runs event q) : r = q := by
  have hsame : r.result = q.result := by
    have hpayload := h.result
    rw [h'.result] at hpayload
    exact (EventPayload.result.inj hpayload).symm
  obtain ⟨run, columns, hget, -, hresult, -, rfl, -⟩ := h.run hsound
  obtain ⟨run', columns', hget', -, hresult', -, rfl, -⟩ := h'.run hsound
  have hrow : run.toRunRow = run'.toRunRow := by
    rw [hsame, hget'] at hget
    exact (Option.some.inj hget).symm
  have hcolumns : columns = columns' := by
    have hboth : run.toRunRow.result = some columns' := hrow ▸ hresult'
    rw [hresult] at hboth
    exact Option.some.inj hboth
  subst hcolumns
  rw [show run.request = run'.request from congrArg RunRow.request hrow]

theorem replayedResult_ok (hsound : SoundEvents digests table runs) (h : AppliedBy runs event r) :
    replayedResult table runs event r.result = .ok r := by
  obtain ⟨run, columns, hget, hread, hresult, hevent, rfl, stored, hstored, hresultEvent⟩ :=
    h.run hsound
  have hid : stored.metadata.eventId = event.metadata.eventId :=
    (Table.key_of_get hstored.found).trans hevent
  unfold replayedResult
  refine bind_ok.mpr ⟨run, fetchRequiredRun_ok.mpr ⟨run.toRunRow, hget, hread⟩, ?_⟩
  refine bind_ok.mpr ⟨columns, need_ok.mpr ?_, rfl⟩
  rw [hresult, Option.filter_some, hresultEvent]
  simp only [decide_true, Option.any_some, hid, beq_self_eq_true, Bool.and_self, if_true]

theorem mem_appliedResults_append {x : AppliedResult F × Int} :
    x ∈ appliedResults runs (events ++ [event]) ↔ x ∈ appliedResults runs events ∨
      (AppliedBy runs event x.1 ∧ x.2 = event.metadata.receivedAt) := by
  constructor
  · rintro ⟨e, he, happlied, hreceived⟩
    rcases List.mem_append.mp he with he | he
    · exact .inl ⟨e, he, happlied, hreceived⟩
    · rw [List.mem_singleton.mp he] at happlied hreceived
      exact .inr ⟨happlied, hreceived⟩
  · rintro (⟨e, he, hx⟩ | hx)
    · exact ⟨e, List.mem_append_left _ he, hx⟩
    · exact ⟨event, List.mem_append_right _ (List.mem_singleton_self _), hx⟩

theorem appliedResults_fact {value : DurableProjection F} (hpayload : event.payload = .fact value) :
    appliedResults runs (events ++ [event]) = appliedResults runs events := by
  ext x
  rw [mem_appliedResults_append]
  refine or_iff_left ?_
  rintro ⟨happlied, -⟩
  have hresult := happlied.result
  rw [hpayload] at hresult
  cases hresult

theorem appliedResults_result (hsound : SoundEvents digests table runs) (h : AppliedBy runs event r) :
    appliedResults runs (events ++ [event]) =
      insert (r, event.metadata.receivedAt) (appliedResults runs events) := by
  ext x
  rw [mem_appliedResults_append, Set.mem_insert_iff, or_comm]
  refine or_congr_left ?_
  constructor
  · rintro ⟨happlied, hreceived⟩
    exact Prod.ext (happlied.unique hsound h) hreceived
  · rintro rfl
    exact ⟨h, rfl⟩

theorem positionFacts_mono (h : L ⊆ M) :
    positionFacts L ⊆ positionFacts M := fun _ ⟨e, he, hs⟩ => ⟨e, h he, hs⟩

theorem orderFacts_mono (h : L ⊆ M) :
    orderFacts L ⊆ orderFacts M := fun _ ⟨e, he, hs⟩ => ⟨e, h he, hs⟩

theorem resultFacts_mono (h : L ⊆ M) :
    resultFacts L ⊆ resultFacts M := fun _ ⟨e, he, hs⟩ => ⟨e, h he, hs⟩

theorem fullSets_mono {S : Type} {setOf : ReconciliationResult F → List S}
    {A B : Set (ReconciliationResult F)} (h : A ⊆ B) : fullSets setOf A ⊆ fullSets setOf B :=
  fun _ ⟨r, hr, hw⟩ => ⟨r, h hr, hw⟩

theorem CoherentEvents.mono (h : CoherentEvents digests M) (hsub : L ⊆ M) :
    CoherentEvents digests L where
  positions := h.positions.mono (positionFacts_mono hsub) (fullSets_mono (resultFacts_mono hsub))
  orders := h.orders.mono (orderFacts_mono hsub) (fullSets_mono (resultFacts_mono hsub))

theorem SoundEvents.recorded (h : SoundEvents digests table runs) (hsub : events ⊆ table.rows) :
    Recorded table runs events (appliedResults runs events) where
  readable := h.readable
  documented := by
    rintro x ⟨e, he, happlied, hreceived⟩
    obtain ⟨row, hrow, columns, hresult, hid, hpayload, hx⟩ := happlied
    exact ⟨row, hrow, columns, e, hresult, hx, Table.get_eq_some.mpr ⟨hsub he, hid.symm⟩, hreceived⟩
  known := by
    rintro result ⟨e, he, hpayload⟩
    obtain ⟨r, happlied⟩ := h.known e (hsub he) result hpayload
    have hresult := happlied.result
    rw [hpayload] at hresult
    cases hresult
    exact ⟨(r, e.metadata.receivedAt), ⟨e, he, happlied, rfl⟩, rfl⟩
  brought := by
    rintro x ⟨e, he, happlied, -⟩
    exact ⟨e, he, happlied.result⟩

end

/-! ## one event of a replay -/

/-- no account or symbol snapshot contradicts the last one that came before it -/
def Replayable (base events : List (StoredCoreEvent F)) : Prop :=
  ∀ seen e rest, events = seen ++ e :: rest → Undisputed (base ++ seen) e.payload

section
variable {table : EventTable F} {runs : ReconciliationRuns F} {base : List (StoredCoreEvent F)}
  {event : StoredCoreEvent F} {p p' : Projections F D} {e : StoredCoreEvent F}
  {value : DurableProjection F}

theorem RoutedEvent.decode (h : RoutedEvent e) :
    decodeEvent e = .ok e.payload := decodeEvent_ok.mpr ⟨rfl, h.typed⟩

theorem RoutedEvent.ensure (h : RoutedEvent e) (hpayload : e.payload = .fact value)
    {accountId : AccountId} (haccount : e.metadata.accountId = some accountId) (reason : String) :
    ensureFactAccount e accountId value reason = .ok () := by
  refine reject_ok.mpr ?_
  rintro ⟨payloadAccountId, hvalue, hne⟩
  have hsame := h.fact value payloadAccountId hpayload hvalue
  rw [haccount] at hsame
  exact hne (Option.some.inj hsame)

theorem replayEvent_fact (hrouted : RoutedEvent event) (hpayload : event.payload = .fact value)
    {report report' : ReconciliationProjectionRebuildReport} :
    replayEvent digests table runs (p, report) event = .ok (p', report') ↔
      (∃ decision, applyProjection digests p value event.metadata = .ok (p', decision)) ∧
        report' = { report with replayedSnapshotFacts := report.replayedSnapshotFacts + 1 } := by
  obtain ⟨accountId, haccount⟩ := hrouted.bar value hpayload
  unfold replayEvent
  rw [haccount, hrouted.decode, hpayload]
  constructor
  · intro h
    obtain ⟨_, _, h⟩ := bind_ok.mp h
    obtain ⟨_, hvalue, h⟩ := bind_ok.mp h
    cases hvalue
    obtain ⟨_, -, h⟩ := bind_ok.mp h
    obtain ⟨⟨p'', decision⟩, happly, h⟩ := bind_ok.mp h
    cases pure_ok.mp h
    exact ⟨⟨decision, happly⟩, rfl⟩
  · rintro ⟨⟨decision, happly⟩, rfl⟩
    refine bind_ok.mpr ⟨accountId, rfl, bind_ok.mpr ⟨_, rfl, ?_⟩⟩
    refine bind_ok.mpr ⟨(), hrouted.ensure hpayload haccount _, ?_⟩
    exact bind_ok.mpr ⟨(p', decision), happly, rfl⟩

theorem replayEvent_result (hsound : SoundEvents digests table runs) (hevent : event ∈ table.rows)
    {r : AppliedResult F} (happlied : AppliedBy runs event r)
    {report report' : ReconciliationProjectionRebuildReport} :
    replayEvent digests table runs (p, report) event = .ok (p', report') ↔
      applyResult digests table runs p r event.metadata.receivedAt = .ok p' ∧
        report' = { report with
          replayedReconciliationResults := report.replayedReconciliationResults + 1 } := by
  have hrouted := hsound.routed event hevent
  have haccount := hrouted.result r.result happlied.result
  unfold replayEvent
  rw [haccount, hrouted.decode, happlied.result]
  constructor
  · intro h
    obtain ⟨_, _, h⟩ := bind_ok.mp h
    obtain ⟨_, hvalue, h⟩ := bind_ok.mp h
    cases hvalue
    obtain ⟨r', hr', h⟩ := bind_ok.mp h
    rw [replayedResult_ok hsound happlied] at hr'
    cases hr'
    obtain ⟨p'', happly, h⟩ := bind_ok.mp h
    cases pure_ok.mp h
    exact ⟨happly, rfl⟩
  · rintro ⟨happly, rfl⟩
    refine bind_ok.mpr ⟨_, rfl, bind_ok.mpr ⟨_, rfl, ?_⟩⟩
    refine bind_ok.mpr ⟨r, replayedResult_ok hsound happlied, ?_⟩
    exact bind_ok.mpr ⟨p', happly, rfl⟩

theorem replayed_payload (hrouted : RoutedEvent event)
    (htype : event.metadata.eventType ∈ replayEventTypes) :
    (∃ value, event.payload = .fact value ∧ ∀ bar, value ≠ .marketBar bar) ∨
      ∃ result, event.payload = .result result := by
  rw [← hrouted.typed] at htype
  cases hpayload : event.payload with
  | fact value =>
    refine .inl ⟨value, rfl, ?_⟩
    rintro bar rfl
    rw [hpayload] at htype
    exact absurd htype (show "market.bar" ∉ replayEventTypes by decide)
  | request request =>
    rw [hpayload] at htype
    exact absurd htype (show "reconciliation.request" ∉ replayEventTypes by decide)
  | result result => exact .inr ⟨result, rfl⟩

theorem fact_keys (value : DurableProjection F) :
    ((EventPayload.fact value).accounts.map accountKey).Nodup ∧
      ((EventPayload.fact value).symbols.map symbolKey).Nodup := by
  cases value <;>
    exact ⟨by first | exact List.nodup_nil | exact List.nodup_singleton _,
      by first | exact List.nodup_nil | exact List.nodup_singleton _⟩

theorem applyProjection_bars {metadata : CoreEventMetadata} {decision : ApplyDecision}
    (hvalue : ∀ bar, value ≠ .marketBar bar)
    (happly : applyProjection digests p value metadata = .ok (p', decision)) :
    p'.bars = p.bars := by
  cases value with
  | account snapshot =>
    simp only [applyProjection, bind_ok, pure_ok, Prod.mk.injEq, Prod.exists] at happly
    obtain ⟨_, _, _, rfl, -⟩ := happly
    rfl
  | symbol snapshot =>
    simp only [applyProjection, bind_ok, pure_ok, Prod.mk.injEq, Prod.exists] at happly
    obtain ⟨_, _, _, rfl, -⟩ := happly
    rfl
  | position snapshot =>
    simp only [applyProjection, bind_ok, pure_ok, Prod.mk.injEq, Prod.exists] at happly
    obtain ⟨_, _, _, rfl, -⟩ := happly
    rfl
  | order snapshot =>
    simp only [applyProjection, bind_ok, pure_ok, Prod.mk.injEq, Prod.exists] at happly
    obtain ⟨_, _, _, rfl, -⟩ := happly
    rfl
  | marketBar bar => exact absurd rfl (hvalue bar)

theorem append_subset {L M : List (StoredCoreEvent F)} (hL : L ⊆ M) (he : e ∈ M) : L ++ [e] ⊆ M :=
  List.append_subset.mpr ⟨hL, fun _ he' => List.mem_singleton.mp he' ▸ he⟩

/-- the state of a replay, at the events it has reached -/
structure Reached (digests : Digests F D) (runs : ReconciliationRuns F)
    (events : List (StoredCoreEvent F)) (p : Projections F D) : Prop where
  projected : Projected digests events (appliedResults runs events) p
  decided : DecidedEvents events

theorem Reached.replay (hdist : digests.Distinct) (hsound : SoundEvents digests table runs)
    (hbase : base ⊆ table.rows) (hevent : event ∈ table.rows)
    (htype : event.metadata.eventType ∈ replayEventTypes) (h : Reached digests runs base p)
    (report : ReconciliationProjectionRebuildReport) :
    ((∃ next, replayEvent digests table runs (p, report) event = .ok next) ↔
        Undisputed base event.payload) ∧
      ∀ p' report', replayEvent digests table runs (p, report) event = .ok (p', report') →
        Reached digests runs (base ++ [event]) p' ∧ p'.bars = p.bars := by
  have hrouted := hsound.routed event hevent
  have hcoherent := hsound.coherent.mono hbase
  have hcoherent' := hsound.coherent.mono (append_subset hbase hevent)
  rcases replayed_payload hrouted htype with ⟨value, hpayload, hvalue⟩ | ⟨result, hpayload⟩
  · have hshape : event = ⟨event.metadata, .fact value⟩ := by rw [← hpayload]
    rw [hshape] at hcoherent'
    have hundisputed {p'} {decision} (happly : applyProjection digests p value event.metadata =
        .ok (p', decision)) : Undisputed base event.payload := by
      rw [hpayload]
      exact h.projected.fact_undisputed hdist h.decided happly
    refine ⟨⟨?_, fun hfree => ?_⟩, fun p' report' hreplay => ?_⟩
    · rintro ⟨⟨p', report'⟩, hreplay⟩
      obtain ⟨⟨decision, happly⟩, -⟩ := (replayEvent_fact hrouted hpayload).mp hreplay
      exact hundisputed happly
    · rw [hpayload] at hfree
      obtain ⟨p', decision, happly⟩ := h.projected.fact_succeeds hcoherent' hfree
        fun bar hbar => absurd hbar (hvalue bar)
      exact ⟨(p', _), (replayEvent_fact hrouted hpayload).mpr ⟨⟨decision, happly⟩, rfl⟩⟩
    · obtain ⟨⟨decision, happly⟩, -⟩ := (replayEvent_fact hrouted hpayload).mp hreplay
      have hprojected := h.projected.fact hcoherent' happly
      rw [← hshape] at hprojected
      refine ⟨⟨?_, ?_⟩, applyProjection_bars hvalue happly⟩
      · rw [appliedResults_fact hpayload]
        exact hprojected
      · refine h.decided.append (hundisputed happly) ?_ ?_
        · rw [hpayload]
          exact (fact_keys value).1
        · rw [hpayload]
          exact (fact_keys value).2
  · obtain ⟨r, happlied⟩ := hsound.known event hevent result hpayload
    have hshape : event = ⟨event.metadata, .result r.result⟩ := by rw [← happlied.result]
    have hrecorded := hsound.recorded hbase
    have hrecorded' := hsound.recorded (append_subset hbase hevent)
    have halike := hrecorded'.alike hcoherent'
    have hordered : OrderedResult r.result :=
      hrecorded'.ordered ⟨event, List.mem_append_right _ (List.mem_singleton_self _), happlied.result⟩
    rw [hshape] at hcoherent'
    rw [appliedResults_result hsound happlied] at halike
    have hundisputed {p'} (happly : applyResult digests table runs p r event.metadata.receivedAt =
        .ok p') : Undisputed base event.payload := by
      rw [happlied.result]
      exact h.projected.result_undisputed hdist hrecorded hcoherent hordered h.decided happly
    refine ⟨⟨?_, fun hfree => ?_⟩, fun p' report' hreplay => ?_⟩
    · rintro ⟨⟨p', report'⟩, hreplay⟩
      obtain ⟨happly, -⟩ := (replayEvent_result hsound hevent happlied).mp hreplay
      exact hundisputed happly
    · rw [happlied.result] at hfree
      obtain ⟨p', happly⟩ := h.projected.result_succeeds hrecorded hcoherent hcoherent' hordered hfree
        event.metadata.receivedAt
      exact ⟨(p', _), (replayEvent_result hsound hevent happlied).mpr ⟨happly, rfl⟩⟩
    · obtain ⟨happly, -⟩ := (replayEvent_result hsound hevent happlied).mp hreplay
      obtain ⟨hprojected, hbars⟩ := h.projected.result hrecorded hcoherent hcoherent' halike happly
      rw [← hshape] at hprojected
      refine ⟨⟨?_, ?_⟩, hbars⟩
      · rw [appliedResults_result hsound happlied]
        exact hprojected
      · refine h.decided.append (hundisputed happly) ?_ ?_
        · rw [happlied.result]
          exact account_keys r.result
        · rw [happlied.result]
          exact hordered.symbols.keys

/-- A replay succeeds exactly if its events are replayable, and reaches the state of all of them. -/
theorem Reached.replays (hdist : digests.Distinct) (hsound : SoundEvents digests table runs)
    {events : List (StoredCoreEvent F)} (hall : base ++ events ⊆ table.rows)
    (htypes : ∀ e ∈ events, e.metadata.eventType ∈ replayEventTypes)
    (h : Reached digests runs base p) (report : ReconciliationProjectionRebuildReport) :
    ((∃ next, events.foldlM (replayEvent digests table runs) (p, report) = .ok next) ↔
        Replayable base events) ∧
      ∀ p' report', events.foldlM (replayEvent digests table runs) (p, report) = .ok (p', report') →
        Reached digests runs (base ++ events) p' ∧ p'.bars = p.bars := by
  obtain ⟨hsucceeds, hreaches⟩ := foldlM_ready (f := replayEvent digests table runs)
    (fun seen (state : Projections F D × ReconciliationProjectionRebuildReport) =>
      Reached digests runs seen state.1 ∧ state.1.bars = p.bars)
    (fun seen e => Undisputed seen e.payload) (b := (p, report))
    (fun seen event rest state hsplit hevent hseen => by
      have hin : seen ⊆ table.rows ∧ event ∈ table.rows := by
        rw [hsplit] at hall
        exact ⟨fun e he => hall (List.mem_append_left _ he),
          hall (List.mem_append_right _ List.mem_cons_self)⟩
      obtain ⟨hready, hkeeps⟩ := hseen.1.replay hdist hsound hin.1 hin.2 (htypes event hevent) state.2
      refine ⟨hready, fun next hnext => ?_⟩
      obtain ⟨hreached, hbars⟩ := hkeeps next.1 next.2 hnext
      exact ⟨hreached, hbars.trans hseen.2⟩)
    ⟨h, rfl⟩
  exact ⟨hsucceeds, fun p' report' hnext => hreaches (p', report') hnext⟩

/-! ## the pass over the facts -/

theorem replayFact_ok (hrouted : RoutedEvent event) (hpayload : event.payload = .fact value)
    {report report' : StateIngestProjectionRebuildReport} :
    replayFact digests (p, report) event = .ok (p', report') ↔
      ∃ decision, applyProjection digests p value event.metadata = .ok (p', decision) ∧
        report' = report.count decision := by
  obtain ⟨accountId, haccount⟩ := hrouted.bar value hpayload
  unfold replayFact
  rw [haccount, hrouted.decode, hpayload]
  constructor
  · intro h
    obtain ⟨_, _, h⟩ := bind_ok.mp h
    obtain ⟨_, hvalue, h⟩ := bind_ok.mp h
    cases hvalue
    obtain ⟨_, -, h⟩ := bind_ok.mp h
    obtain ⟨⟨p'', decision⟩, happly, h⟩ := bind_ok.mp h
    cases pure_ok.mp h
    exact ⟨decision, happly, rfl⟩
  · rintro ⟨decision, happly, rfl⟩
    refine bind_ok.mpr ⟨accountId, rfl, bind_ok.mpr ⟨_, rfl, ?_⟩⟩
    refine bind_ok.mpr ⟨(), hrouted.ensure hpayload haccount _, ?_⟩
    exact bind_ok.mpr ⟨(p', decision), happly, rfl⟩

theorem fact_payload (hrouted : RoutedEvent event)
    (htype : event.metadata.eventType ∈ factEventTypes) : ∃ value, event.payload = .fact value := by
  rw [← hrouted.typed] at htype
  cases hpayload : event.payload with
  | fact value => exact ⟨value, rfl⟩
  | request request =>
    rw [hpayload] at htype
    exact absurd htype (show "reconciliation.request" ∉ factEventTypes by decide)
  | result result =>
    rw [hpayload] at htype
    exact absurd htype (show "reconciliation.result" ∉ factEventTypes by decide)

/-- the events have one bar for each key -/
def OneBar (events : List (StoredCoreEvent F)) : Prop :=
  ∀ x ∈ events, ∀ y ∈ events, ∀ b c, barOf x = some b → barOf y = some c → barKey b = barKey c →
    b.payload = c.payload

theorem BarsShown.oneBar {events : List (StoredCoreEvent F)} {bars : Keyed (barKey (F := F))}
    (h : BarsShown events bars) : OneBar events := by
  intro x hx y hy b c hb hc hkey
  obtain ⟨row, hrow, hpayload⟩ := h.top x hx b hb
  obtain ⟨row', hrow', hpayload'⟩ := h.top y hy c hc
  rw [← hkey, hrow] at hrow'
  cases hrow'
  exact hpayload.symm.trans hpayload'

/-- the state of the pass over the facts -/
structure FactsReached (digests : Digests F D) (runs : ReconciliationRuns F)
    (events : List (StoredCoreEvent F)) (p : Projections F D) : Prop extends
    Reached digests runs events p where
  bars : BarsShown events p.bars
  first : FirstReceived events p.bars

theorem applyProjection_showsBars (hdist : digests.Distinct) (hrouted : RoutedEvent event)
    (hpayload : event.payload = .fact value) {decision : ApplyDecision} (h : BarsShown base p.bars)
    (happly : applyProjection digests p value event.metadata = .ok (p', decision)) :
    BarsShown (base ++ [event]) p'.bars ∧
      ((∀ e ∈ base, e.metadata.receivedAt ≤ event.metadata.receivedAt) →
        FirstReceived base p.bars → FirstReceived (base ++ [event]) p'.bars) := by
  by_cases hbar : ∃ bar, value = .marketBar bar
  · obtain ⟨bar, rfl⟩ := hbar
    obtain ⟨accountId, haccount⟩ := hrouted.bar _ hpayload
    have hb : barOf event = some ⟨accountId, bar, event.metadata.receivedAt⟩ := by
      unfold barOf
      rw [hpayload, haccount]
    simp only [applyProjection, bind_ok, pure_ok, Prod.mk.injEq, Prod.exists, requireEventAccount,
      need_ok] at happly
    obtain ⟨accountId', haccount', bars, _, happly, rfl, -⟩ := happly
    rw [haccount] at haccount'
    cases haccount'
    exact ⟨h.bar hdist hb happly, fun hlate hfirst => hfirst.bar h hlate hb happly⟩
  · have hnone : barOf event = none := by
      unfold barOf
      rw [hpayload]
      split
      · rename_i bar _ hvalue _
        exact absurd ⟨bar, EventPayload.fact.inj hvalue⟩ hbar
      · rfl
    have hbars := applyProjection_bars (fun bar hvalue => hbar ⟨bar, hvalue⟩) happly
    rw [hbars]
    refine ⟨h.other hnone, fun _ hfirst row hrow e he b hb hkey => ?_⟩
    rcases List.mem_append.mp he with he | he
    · exact hfirst row hrow e he b hb hkey
    · rw [List.mem_singleton.mp he, hnone] at hb
      cases hb

theorem FactsReached.replay (hdist : digests.Distinct) (hsound : SoundEvents digests table runs)
    (hone : OneBar table.rows) (hbase : base ⊆ table.rows) (hevent : event ∈ table.rows)
    (htype : event.metadata.eventType ∈ factEventTypes)
    (hlate : ∀ e ∈ base, e.metadata.receivedAt ≤ event.metadata.receivedAt)
    (h : FactsReached digests runs base p) (report : StateIngestProjectionRebuildReport) :
    ((∃ next, replayFact digests (p, report) event = .ok next) ↔ Undisputed base event.payload) ∧
      ∀ p' report', replayFact digests (p, report) event = .ok (p', report') →
        FactsReached digests runs (base ++ [event]) p' := by
  have hrouted := hsound.routed event hevent
  have hcoherent := hsound.coherent.mono (append_subset hbase hevent)
  obtain ⟨value, hpayload⟩ := fact_payload hrouted htype
  have hshape : event = ⟨event.metadata, .fact value⟩ := by rw [← hpayload]
  rw [hshape] at hcoherent
  have hundisputed {p'} {decision} (happly : applyProjection digests p value event.metadata =
      .ok (p', decision)) : Undisputed base event.payload := by
    rw [hpayload]
    exact h.projected.fact_undisputed hdist h.decided happly
  refine ⟨⟨?_, fun hfree => ?_⟩, fun p' report' hreplay => ?_⟩
  · rintro ⟨⟨p', report'⟩, hreplay⟩
    obtain ⟨decision, happly, -⟩ := (replayFact_ok hrouted hpayload).mp hreplay
    exact hundisputed happly
  · rw [hpayload] at hfree
    have hbar : BarAgrees digests p event.metadata value := by
      rintro bar rfl
      obtain ⟨accountId, haccount⟩ := hrouted.bar _ hpayload
      refine ⟨accountId, haccount, fun row hrow => ?_⟩
      have hb : barOf event = some ⟨accountId, bar, event.metadata.receivedAt⟩ := by
        unfold barOf
        rw [hpayload, haccount]
      obtain ⟨hmem, hkey⟩ := Table.get_eq_some.mp hrow
      obtain ⟨e, he, hrow'⟩ := h.bars.sound row hmem
      rw [hone e (hbase he) event hevent row _ hrow' hb hkey]
    obtain ⟨p', decision, happly⟩ := h.projected.fact_succeeds hcoherent hfree hbar
    exact ⟨(p', _), (replayFact_ok hrouted hpayload).mpr ⟨decision, happly, rfl⟩⟩
  · obtain ⟨decision, happly, -⟩ := (replayFact_ok hrouted hpayload).mp hreplay
    have hprojected := h.projected.fact hcoherent happly
    rw [← hshape] at hprojected
    obtain ⟨hbars, hfirst⟩ := applyProjection_showsBars hdist hrouted hpayload h.bars happly
    refine ⟨⟨?_, ?_⟩, hbars, hfirst hlate h.first⟩
    · rw [appliedResults_fact hpayload]
      exact hprojected
    · refine h.decided.append (hundisputed happly) ?_ ?_
      · rw [hpayload]
        exact (fact_keys value).1
      · rw [hpayload]
        exact (fact_keys value).2

/-- The pass over the facts succeeds exactly if they are replayable, and reaches the state of them. -/
theorem FactsReached.replays (hdist : digests.Distinct) (hsound : SoundEvents digests table runs)
    (hone : OneBar table.rows) {events : List (StoredCoreEvent F)}
    (hall : base ++ events ⊆ table.rows) (htypes : ∀ e ∈ events, e.metadata.eventType ∈ factEventTypes)
    (hsorted : (base ++ events).Pairwise fun x y => x.metadata.receivedAt ≤ y.metadata.receivedAt)
    (h : FactsReached digests runs base p) (report : StateIngestProjectionRebuildReport) :
    ((∃ next, events.foldlM (replayFact digests) (p, report) = .ok next) ↔ Replayable base events) ∧
      ∀ p' report', events.foldlM (replayFact digests) (p, report) = .ok (p', report') →
        FactsReached digests runs (base ++ events) p' := by
  obtain ⟨hsucceeds, hreaches⟩ := foldlM_ready (f := replayFact digests)
    (fun seen (state : Projections F D × StateIngestProjectionRebuildReport) =>
      FactsReached digests runs seen state.1)
    (fun seen e => Undisputed seen e.payload) (b := (p, report))
    (fun seen event rest state hsplit hevent hseen => by
      rw [hsplit] at hall hsorted
      have hlate : ∀ e ∈ seen, e.metadata.receivedAt ≤ event.metadata.receivedAt := fun e he =>
        (List.pairwise_append.mp hsorted).2.2 e he event List.mem_cons_self
      obtain ⟨hready, hkeeps⟩ := hseen.replay hdist hsound hone
        (fun e he => hall (List.mem_append_left _ he))
        (hall (List.mem_append_right _ List.mem_cons_self)) (htypes event hevent) hlate state.2
      exact ⟨hready, fun next hnext => hkeeps next.1 next.2 hnext⟩)
    h
  exact ⟨hsucceeds, fun p' report' hnext => hreaches (p', report') hnext⟩

end

end Sinan.Projection
