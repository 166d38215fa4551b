import Sinan.Projection.Rebuilt

/-!
# Projections: when an observation is accepted

Whether a position fact, an order fact or a plain result is accepted is a matter of the observation
itself, of the events it clashes with, and of the durable facts with it; the tables never refuse one
(`accepts_fact`, `accepts_result`).
-/

set_option linter.unusedSectionVars false

namespace Sinan.Projection

open Lib Store Reconciliation

variable {F D : Type} [DecidableEq F] [DecidableEq D] {digests : Digests F D}

/-! ## events that clash -/

/-- the metadata without the times the server gave -/
def timeless (metadata : CoreEventMetadata) : CoreEventMetadata :=
  { metadata with receivedAt := 0, createdAt := 0 }

/-- the same event but for the times the server gave it -/
def SameFact (x y : StoredCoreEvent F) : Prop :=
  x.payload = y.payload ∧ timeless x.metadata = timeless y.metadata

/-- the events have the same event id or message id -/
def Clash (x y : StoredCoreEvent F) : Prop :=
  x.metadata.eventId = y.metadata.eventId ∨
    ∃ m, x.metadata.messageId = some m ∧ y.metadata.messageId = some m

/-- the events clash only if they are the same -/
def Compatible (x y : StoredCoreEvent F) : Prop := Clash x y → SameFact x y

section
variable {table table' : EventTable F} {x y z e : StoredCoreEvent F}

theorem sameCoreEventFact_iff : sameCoreEventFact x y = true ↔ SameFact x y := by
  unfold sameCoreEventFact SameFact
  rw [decide_eq_true_iff]
  refine and_congr_right fun _ => ⟨fun h => ?_, fun h => ?_⟩
  · rw [← h]
    rfl
  · obtain ⟨metadata, payload⟩ := x
    obtain ⟨metadata', payload'⟩ := y
    cases metadata
    cases metadata'
    cases h
    rfl

theorem SameFact.symm (h : SameFact x y) : SameFact y x := ⟨h.1.symm, h.2.symm⟩

theorem SameFact.trans (h : SameFact x y) (h' : SameFact y z) : SameFact x z :=
  ⟨h.1.trans h'.1, h.2.trans h'.2⟩

theorem SameFact.eventId (h : SameFact x y) : x.metadata.eventId = y.metadata.eventId := by
  have hid := congrArg CoreEventMetadata.eventId h.2
  exact hid

theorem SameFact.messageId (h : SameFact x y) : x.metadata.messageId = y.metadata.messageId := by
  have hid := congrArg CoreEventMetadata.messageId h.2
  exact hid

theorem Clash.symm (h : Clash x y) : Clash y x := by
  rcases h with h | ⟨m, hx, hy⟩
  · exact .inl h.symm
  · exact .inr ⟨m, hy, hx⟩

theorem Compatible.symm (h : Compatible x y) : Compatible y x := fun hc => (h hc.symm).symm

theorem SameFact.clash (h : SameFact x y) : Clash x z ↔ Clash y z := by
  unfold Clash
  rw [h.eventId, h.messageId]

theorem SameFact.compatible (h : SameFact x y) : Compatible x z ↔ Compatible y z := by
  unfold Compatible
  rw [h.clash]
  exact imp_congr_right fun _ => ⟨fun hz => h.symm.trans hz, fun hz => h.trans hz⟩

theorem mem_conflicts : y ∈ fetchCoreEventConflicts table e ↔ y ∈ table.rows ∧ Clash y e := by
  unfold fetchCoreEventConflicts Clash
  rw [List.mem_filter, Bool.or_eq_true, beq_iff_eq, Bool.and_eq_true, Option.isSome_iff_exists,
    beq_iff_eq]
  refine and_congr_right fun _ => or_congr_right ⟨?_, ?_⟩
  · rintro ⟨⟨m, hm⟩, hsame⟩
    exact ⟨m, hsame.trans hm, hm⟩
  · rintro ⟨m, hy, he⟩
    exact ⟨⟨m, he⟩, hy.trans he.symm⟩

theorem insert_iff : (∃ table', table.insert e = some table') ↔ ∀ y ∈ table.rows, ¬ Clash y e := by
  constructor
  · rintro ⟨table', h⟩ y hy (hid | ⟨m, hm, he⟩)
    · have hget : table.get e.metadata.eventId = some y := Table.get_eq_some.mpr ⟨hy, hid⟩
      rw [Table.insert_fresh h] at hget
      cases hget
    · have hkept : table'.seek m = some y :=
        Table.seek_insert_of_some h (Table.seek_eq_some.mpr ⟨hy, hm⟩)
      rw [Table.seek_insert h, if_pos he] at hkept
      have hsame := Option.some.inj hkept
      subst hsame
      have hget : table.get e.metadata.eventId = some e := Table.get_eq_some.mpr ⟨hy, rfl⟩
      rw [Table.insert_fresh h] at hget
      cases hget
  · intro h
    refine Table.insert_free ?_ fun m hm => ?_
    · cases hget : table.get e.metadata.eventId with
      | none => rfl
      | some y =>
        obtain ⟨hy, hid⟩ := Table.get_eq_some.mp hget
        exact absurd (.inl hid) (h y hy)
    · cases hseek : table.seek m with
      | none => rfl
      | some y =>
        obtain ⟨hy, hindex⟩ := Table.seek_eq_some.mp hseek
        exact absurd (.inr ⟨m, hindex, hm⟩) (h y hy)

theorem append_iff :
    (∃ next, appendCoreEvent table e = .ok next) ↔ ∀ y ∈ table.rows, Compatible y e := by
  constructor
  · rintro ⟨⟨table', outcome⟩, h⟩ y hy hclash
    rcases appendCoreEvent_ok.mp h with ⟨hinsert, -⟩ | ⟨-, -, existing, hconflicts, hsame, -⟩
    · exact absurd hclash (insert_iff.mp ⟨table', hinsert⟩ y hy)
    · have hmem : y ∈ fetchCoreEventConflicts table e := mem_conflicts.mpr ⟨hy, hclash⟩
      rw [hconflicts, List.mem_singleton] at hmem
      rw [hmem]
      exact sameCoreEventFact_iff.mp hsame
  · intro h
    by_cases hfree : ∀ y ∈ table.rows, ¬ Clash y e
    · obtain ⟨table', hinsert⟩ := insert_iff.mpr hfree
      exact ⟨(table', .inserted e), appendCoreEvent_ok.mpr (.inl ⟨hinsert, rfl⟩)⟩
    · push Not at hfree
      obtain ⟨y, hy, hclash⟩ := hfree
      have hsame := h y hy hclash
      have hinsert : table.insert e = none := by
        cases hnew : table.insert e with
        | none => rfl
        | some table' => exact absurd hclash (insert_iff.mp ⟨table', hnew⟩ y hy)
      -- all that clash have the event id of the one there is
      have hconflicts : fetchCoreEventConflicts table e = [y] := by
        have hnodup : (fetchCoreEventConflicts table e).Nodup :=
          (List.Nodup.of_map _ table.keyed).filter _
        have hall : ∀ z ∈ fetchCoreEventConflicts table e, z = y := by
          intro z hz
          obtain ⟨hz, hzc⟩ := mem_conflicts.mp hz
          have hid := ((h z hz hzc).trans hsame.symm).eventId
          have hgetZ : table.get y.metadata.eventId = some z := Table.get_eq_some.mpr ⟨hz, hid⟩
          have hgetY : table.get y.metadata.eventId = some y := Table.get_eq_some.mpr ⟨hy, rfl⟩
          rw [hgetY] at hgetZ
          exact (Option.some.inj hgetZ).symm
        have hmem : y ∈ fetchCoreEventConflicts table e := mem_conflicts.mpr ⟨hy, hclash⟩
        exact List.perm_singleton.mp ((List.perm_ext_iff_of_nodup hnodup (List.nodup_singleton y)).mpr
          fun z => ⟨fun hz => List.mem_singleton.mpr (hall z hz),
            fun hz => List.mem_singleton.mp hz ▸ hmem⟩)
      exact ⟨(table, .duplicate y), appendCoreEvent_ok.mpr
        (.inr ⟨hinsert, rfl, y, hconflicts, sameCoreEventFact_iff.mpr hsame, rfl⟩)⟩

theorem appended_rows {outcome : WriteOutcome (StoredCoreEvent F)}
    (h : appendCoreEvent table e = .ok (table', outcome)) :
    (table'.rows = table.rows ++ [e] ∧ outcome.record = e) ∨
      (table' = table ∧ outcome.record ∈ table.rows ∧ SameFact outcome.record e) := by
  rcases appendCoreEvent_ok.mp h with ⟨hinsert, rfl⟩ | ⟨-, rfl, existing, hconflicts, hsame, rfl⟩
  · exact .inl ⟨Table.ofRows_rows hinsert, rfl⟩
  · refine .inr ⟨rfl, ?_, sameCoreEventFact_iff.mp hsame⟩
    have hmem : existing ∈ fetchCoreEventConflicts table' e := by
      rw [hconflicts]
      exact List.mem_singleton_self _
    exact (mem_conflicts.mp hmem).1

end

/-! ## the same documents -/

/-- two lists of events with the same documents -/
def SamePayloads (L M : List (StoredCoreEvent F)) : Prop :=
  ∀ payload, (∃ e ∈ L, e.payload = payload) ↔ ∃ e ∈ M, e.payload = payload

section
variable {L M N : List (StoredCoreEvent F)} {e : StoredCoreEvent F}

theorem SamePayloads.refl (L : List (StoredCoreEvent F)) : SamePayloads L L := fun _ => Iff.rfl

theorem SamePayloads.symm (h : SamePayloads L M) : SamePayloads M L := fun payload => (h payload).symm

theorem SamePayloads.trans (h : SamePayloads L M) (h' : SamePayloads M N) : SamePayloads L N :=
  fun payload => (h payload).trans (h' payload)

theorem mem_payloads_append {payload : EventPayload F} :
    (∃ x ∈ L ++ [e], x.payload = payload) ↔ (∃ x ∈ L, x.payload = payload) ∨ e.payload = payload := by
  simp only [List.mem_append, List.mem_singleton, or_and_right, exists_or, exists_eq_left]

theorem SamePayloads.append {d : StoredCoreEvent F} (h : SamePayloads L M)
    (hpayload : d.payload = e.payload) : SamePayloads (L ++ [d]) (M ++ [e]) := by
  intro payload
  rw [mem_payloads_append, mem_payloads_append, h payload, hpayload]

theorem SamePayloads.again {d : StoredCoreEvent F} (hd : d ∈ L) (hpayload : d.payload = e.payload) :
    SamePayloads L (L ++ [e]) := by
  intro payload
  rw [mem_payloads_append]
  refine ⟨.inl, ?_⟩
  rintro (h | h)
  · exact h
  · exact ⟨d, hd, hpayload.trans h⟩

theorem SamePayloads.observations {S : Type} (h : SamePayloads L M) (give : EventPayload F → S → Prop) :
    {s | ∃ e ∈ L, give e.payload s} = {s | ∃ e ∈ M, give e.payload s} := by
  ext s
  constructor
  · rintro ⟨e, he, hs⟩
    obtain ⟨d, hd, hpayload⟩ := (h e.payload).mp ⟨e, he, rfl⟩
    exact ⟨d, hd, hpayload ▸ hs⟩
  · rintro ⟨e, he, hs⟩
    obtain ⟨d, hd, hpayload⟩ := (h e.payload).mpr ⟨e, he, rfl⟩
    exact ⟨d, hd, hpayload ▸ hs⟩

theorem SamePayloads.positionFacts (h : SamePayloads L M) : positionFacts L = positionFacts M :=
  h.observations fun payload s => payload = .fact (.position s)

theorem SamePayloads.orderFacts (h : SamePayloads L M) : orderFacts L = orderFacts M :=
  h.observations fun payload s => payload = .fact (.order s)

theorem SamePayloads.resultFacts (h : SamePayloads L M) : resultFacts L = resultFacts M :=
  h.observations fun payload r => payload = .result r

theorem SamePayloads.coherent (h : SamePayloads L M) (hcoherent : CoherentEvents digests L) :
    CoherentEvents digests M := by
  obtain ⟨hpositions, horders⟩ := hcoherent
  rw [positionSets, h.positionFacts, h.resultFacts] at hpositions
  rw [orderSets, h.orderFacts, h.resultFacts] at horders
  exact ⟨hpositions, horders⟩

end

/-! ## a fact -/

/-- a fact that only the position and order tables are about -/
structure PlainFact (value : DurableProjection F) : Prop where
  accounts : (EventPayload.fact value).accounts = []
  symbols : (EventPayload.fact value).symbols = []
  bar : ∀ bar, value ≠ .marketBar bar

section
variable {s s' : ProjectionStore F D} {metadata : CoreEventMetadata} {value : DurableProjection F}
  {outcome : ProjectionWriteOutcome} {table : EventTable F} {events : List (StoredCoreEvent F)}

theorem durable_of_coherent (hdist : digests.Distinct) (hrouted : ∀ e ∈ table.rows, RoutedEvent e)
    (hcoherent : CoherentEvents digests table.rows) (accountId : AccountId) :
    validateAccountDurable digests table accountId = .ok () :=
  (validateAccountDurable_ok hdist hrouted).mpr (coherentEvents_iff.mp hcoherent accountId)

theorem appended_payloads {table' : EventTable F} {e : StoredCoreEvent F}
    {append : WriteOutcome (StoredCoreEvent F)}
    (h : appendCoreEvent table e = .ok (table', append)) :
    SamePayloads table'.rows (table.rows ++ [e]) := by
  rcases appended_rows h with ⟨hrows, -⟩ | ⟨rfl, hmem, hsame⟩
  · rw [hrows]
    exact .refl _
  · exact .again hmem hsame.1

/-- A plain fact is accepted exactly if it is valid, clashes with no other event and agrees with the
durable facts. -/
theorem Kept.accepts_fact (hdist : digests.Distinct) (h : Kept digests s) (hplain : PlainFact value) :
    (∃ next, ingestDurable digests s metadata value = .ok next) ↔
      validateIdentity value metadata = .ok () ∧
        (∀ y ∈ s.events.rows, Compatible y ⟨metadata, .fact value⟩) ∧
        CoherentEvents digests (s.events.rows ++ [⟨metadata, .fact value⟩]) := by
  constructor
  · rintro ⟨⟨s', outcome⟩, hok⟩
    have hkept := h.ingest hdist hok
    obtain ⟨hidentity, events, append, happend, -, p, decision, -, rfl, -⟩ := ingestDurable_ok.mp hok
    exact ⟨hidentity, append_iff.mp ⟨_, happend⟩, (appended_payloads happend).coherent hkept.coherent⟩
  · rintro ⟨hidentity, hcompatible, hcoherent⟩
    obtain ⟨⟨events, append⟩, happend⟩ := append_iff.mpr hcompatible
    have hrouted := validateIdentity_ok hidentity
    have hallRouted : ∀ e ∈ events.rows, RoutedEvent e := by
      intro e he
      rcases appended_rows happend with ⟨hrows, -⟩ | ⟨rfl, -⟩
      · rw [hrows] at he
        rcases List.mem_append.mp he with he | he
        · exact h.routed e he
        · rw [List.mem_singleton.mp he]
          exact hrouted
      · exact h.routed e he
    have hcoherentRows := (appended_payloads happend).symm.coherent hcoherent
    have hsame : SamePayloads (s.events.rows ++ [⟨metadata, .fact value⟩])
        (s.events.rows ++ [⟨append.record.metadata, .fact value⟩]) := (SamePayloads.refl _).append rfl
    have hfree : Undisputed s.events.rows (.fact value) := by
      refine ⟨fun snapshot hs => ?_, fun snapshot hs => ?_⟩
      · rw [hplain.accounts] at hs
        cases hs
      · rw [hplain.symbols] at hs
        cases hs
    obtain ⟨p, decision, happly⟩ := h.reached.projected.fact_succeeds (hsame.coherent hcoherent) hfree
      fun bar hbar => absurd hbar (hplain.bar bar)
    exact ⟨_, ingestDurable_ok.mpr ⟨hidentity, events, append, happend,
      each_ok.mpr fun accountId _ => durable_of_coherent hdist hallRouted hcoherentRows accountId,
      p, decision, happly, rfl, rfl⟩⟩

end

/-! ## a result -/

section
variable {s s' : ProjectionStore F D} {bundle : NewReconciliationResult F} {table : EventTable F}
  {existing : StoredReconciliationRun F}

/-- the event of a result -/
def NewReconciliationResult.event (bundle : NewReconciliationResult F) : StoredCoreEvent F :=
  ⟨bundle.eventMetadata, .result bundle.result⟩

theorem settled_reads (hread : readRun table existing.toRunRow = .ok existing)
    (hvalid : validateResultBundle existing bundle = .ok ()) (hstatus : existing.status = .requested)
    {table' : EventTable F} (hext : Extends table table')
    (hfound : table'.get bundle.eventMetadata.eventId = some bundle.event) :
    ∃ stored, readRun table' (existing.toRunRow.settled bundle) = .ok stored := by
  have hfresh := (validateResultBundle_ok hvalid).fresh
  unfold validateResultBundle at hvalid
  simp only [bind_ok, exists_unit, reject_ok, not_not] at hvalid
  obtain ⟨hroute, -, hmanual, -, hmetadata, hsets, hevaluation, hcompleteness, hlink⟩ := hvalid
  obtain ⟨requestEvent, resultEvent, hrun, -⟩ := readRun_ok.mp hread
  have hstate := hrun.state
  unfold validRunState at hstate
  rw [hstatus, Bool.and_eq_true] at hstate
  have hnone := Option.isNone_iff_eq_none.mp hstate.2
  refine ⟨_, readRun_ok.mpr ⟨requestEvent, some bundle.event,
    ⟨hrun.request, hext _ _ hrun.requestFound, hrun.requestStored, ?_, ?_, ?_, ?_⟩, rfl⟩⟩
  · unfold fetchResultEvent RunRow.settled validateResultColumns validateStoredEvent
    simp only [bind_ok, pure_ok, exists_unit, mapError_ok, need_ok, reject_ok, not_not]
    exact ⟨⟨hroute, hsets, hevaluation, hcompleteness, hlink⟩, bundle.event, hfound,
      ⟨hmetadata, rfl⟩, rfl⟩
  · unfold validateManualColumns RunRow.settled
    rw [hnone]
    refine reject_ok.mpr fun hescalated => ?_
    cases hdisposition : bundle.evaluation.disposition with
    | manualRequired => exact hmanual hdisposition
    | _ =>
      rw [hdisposition] at hescalated
      cases hescalated
  · have htimes := hrun.times
    push Not at htimes
    obtain ⟨hcreated, hafter, hupdated, -⟩ := htimes
    rintro (hc | ha | hu | ht)
    · exact hc hcreated
    · exact absurd ha (not_lt.mpr hafter)
    · exact absurd hu (not_lt.mpr (hupdated.trans hfresh))
    · unfold statusTimeValid RunRow.settled at ht
      cases hdisposition : bundle.evaluation.disposition with
      | manualRequired => exact hmanual hdisposition
      | _ =>
        rw [hdisposition] at ht
        simp [statusForDisposition, NewReconciliationResult.event] at ht
  · unfold validRunState RunRow.settled
    cases hdisposition : bundle.evaluation.disposition with
    | manualRequired => exact absurd hdisposition hmanual
    | completed => simp [statusForDisposition, hdisposition, hnone]
    | pendingEvidence => simp [statusForDisposition, hdisposition, hnone]

/-- a result without account and symbol snapshots -/
def PlainResult (result : ReconciliationResult F) : Prop :=
  result.account = none ∧ result.symbolMetadata = []

theorem bundle_routed (hvalid : ValidBundle existing bundle) : RoutedEvent bundle.event := by
  refine ⟨hvalid.metadata.1.symm, fun value accountId hvalue => ?_, fun value hvalue => ?_,
    fun r hr => ?_⟩
  · cases hvalue
  · cases hvalue
  · cases hr
    exact hvalid.metadata.2

/-- A plain result of a run that has none is accepted exactly if it is valid, its event clashes with
no other one, and it agrees with the durable facts. -/
theorem Kept.accepts_result (hdist : digests.Distinct) (h : Kept digests s)
    (hplain : PlainResult bundle.result)
    (hget : s.runs.get bundle.result.requestId = some existing.toRunRow)
    (hread : readRun s.events existing.toRunRow = .ok existing) (hnone : existing.result = none) :
    (∃ next, commitReconciliationResult digests s bundle = .ok next) ↔
      validateResultBundle existing bundle = .ok () ∧ existing.status = .requested ∧
        (∀ y ∈ s.events.rows, ¬ Clash y bundle.event) ∧
        CoherentEvents digests (s.events.rows ++ [bundle.event]) := by
  constructor
  · rintro ⟨⟨s', outcome⟩, hok⟩
    have hkept := h.commit hdist hok
    obtain ⟨existing', hget', hread', hvalid, hcase⟩ := commitReconciliationResult_ok.mp hok
    have hsame : existing' = existing := by
      rw [← Option.some.inj (hget.symm.trans hget'), hread] at hread'
      exact (Except.ok.inj hread').symm
    subst hsame
    rcases hcase with ⟨-, stored, hcommitted, -⟩ | ⟨hsome, -⟩
    · refine ⟨hvalid, hcommitted.status, insert_iff.mp ⟨_, hcommitted.inserted⟩, ?_⟩
      have hcoherent := hkept.coherent
      rw [Table.ofRows_rows hcommitted.inserted] at hcoherent
      exact hcoherent
    · rw [hnone] at hsome
      cases hsome
  · rintro ⟨hvalid, hstatus, hfree, hcoherent⟩
    have hbundle := validateResultBundle_ok hvalid
    obtain ⟨events, hinsert⟩ := insert_iff.mpr hfree
    have hrows := Table.ofRows_rows hinsert
    have hext : Extends s.events events := fun _ _ hgot => Table.get_insert_of_some hinsert hgot
    have hrouted : ∀ e ∈ events.rows, RoutedEvent e := by
      intro e he
      rw [hrows] at he
      rcases List.mem_append.mp he with he | he
      · exact h.routed e he
      · rw [List.mem_singleton.mp he]
        exact bundle_routed hbundle
    have hfound : events.get bundle.eventMetadata.eventId = some bundle.event := by
      rw [Table.get_insert hinsert]
      exact if_pos rfl
    have hundisputed : Undisputed s.events.rows (.result bundle.result) := by
      refine ⟨fun snapshot hs => ?_, fun snapshot hs => ?_⟩
      · have hsnapshot : snapshot ∈ bundle.result.account.toList := hs
        rw [hplain.1] at hsnapshot
        cases hsnapshot
      · have hsnapshot : snapshot ∈ bundle.result.symbolMetadata := hs
        rw [hplain.2] at hsnapshot
        cases hsnapshot
    obtain ⟨p, happly⟩ := h.reached.projected.result_succeeds (r := appliedBundle existing bundle)
      ((h.recorded fun _ he => he).extends hext) h.coherent hcoherent hbundle.ordered hundisputed
      bundle.eventMetadata.receivedAt
    have hgot : s.runs.get (existing.toRunRow.settled bundle).request.requestId =
        some existing.toRunRow := by
      have hkey : (existing.toRunRow.settled bundle).request.requestId = bundle.result.requestId :=
        hbundle.route.1.symm
      rw [hkey]
      exact hget
    obtain ⟨runs, hput⟩ := Table.put_kept hgot rfl
    obtain ⟨stored, hstored⟩ := settled_reads hread hvalid hstatus hext hfound
    have hcommitted : CommittedResult digests s ⟨events, runs, p⟩ existing bundle stored := by
      refine ⟨hstatus, hinsert, ?_, happly, hput, fetchRequiredRun_ok.mpr ⟨_, ?_, hstored⟩⟩
      · refine durable_of_coherent hdist hrouted ?_ _
        rw [hrows]
        exact hcoherent
      · rw [hbundle.route.1]
        exact Table.get_put_self hput hgot
    exact ⟨_, commitReconciliationResult_ok.mpr ⟨existing, hget, hread, hvalid,
      .inl ⟨hnone, stored, hcommitted, rfl⟩⟩⟩

end

end Sinan.Projection
