import Sinan.Projection.Rebuilt

/-!
# Projections: the records read back

In every store that accepted calls lead to, each run and each checkpoint passes the checks of its
reader, and what a call has written is what the reader finds.
-/

namespace Sinan.Projection

open Lib Store Reconciliation

variable {F D : Type} [DecidableEq F] [DecidableEq D] {digests : Digests F D}

/-- every run and every checkpoint can be read -/
structure ReadsBack (digests : Digests F D) (s : ProjectionStore F D) : Prop where
  runs : ∀ row ∈ s.runs.rows, ∃ run,
    fetchReconciliationRun s.events s.runs row.request.requestId = .ok (some run)
  checkpoints : ∀ accountId, ∃ checkpoint,
    fetchCheckpoint digests s.events s.runs s.projections accountId = .ok checkpoint

/-- the run that a creation has written, or found -/
structure RunWritten (s' : ProjectionStore F D) (newRun : NewReconciliationRun)
    (stored : StoredReconciliationRun F) : Prop where
  fetched : fetchReconciliationRun s'.events s'.runs newRun.request.requestId = .ok (some stored)
  request : stored.request = newRun.request
  requestedAt : stored.requestedAt = newRun.requestedAt
  event : sameEventSemantics stored.requestEvent.metadata newRun.eventMetadata = true

/-- the run with the result that a commit has written, or found, and the account's checkpoint -/
structure ResultWritten (digests : Digests F D) (s s' : ProjectionStore F D)
    (bundle : NewReconciliationResult F) (outcome : WriteOutcome (StoredReconciliationRun F)) :
    Prop where
  fetched : fetchReconciliationRun s'.events s'.runs bundle.result.requestId =
    .ok (some outcome.record)
  result : ∃ eventId, outcome.record.result =
    some ⟨eventId, bundle.result, bundle.evaluation, bundle.completeness⟩
  event : ∃ event, outcome.record.resultEvent = some event ∧
    sameEventSemantics event.metadata bundle.eventMetadata = true
  checkpoint : outcome.wasInserted = true →
    fetchCheckpoint digests s'.events s'.runs s'.projections bundle.result.accountId =
      .ok (some (advancedCheckpoint digests (appliedBundle outcome.record bundle)
        bundle.eventMetadata.receivedAt (s.projections.checkpoints.get bundle.result.accountId)))

/-- the run with the evidence that an escalation has written, or found -/
structure EscalationWritten (s' : ProjectionStore F D)
    (escalation : NewManualReconciliationEscalation) (stored : StoredReconciliationRun F) : Prop where
  fetched : fetchReconciliationRun s'.events s'.runs escalation.evidence.requestId =
    .ok (some stored)
  manual : stored.manual = some ⟨escalation.evidence, escalation.evaluation⟩
  updatedAt : stored.updatedAt = escalation.updatedAt

/-- what is written can be read, whatever is written next -/
structure WritesReadBack (digests : Digests F D) (s : ProjectionStore F D) : Prop where
  create : ∀ newRun s' outcome, createReconciliationRun s newRun = .ok (s', outcome) →
    RunWritten s' newRun outcome.record
  commit : ∀ bundle s' outcome, commitReconciliationResult digests s bundle = .ok (s', outcome) →
    ResultWritten digests s s' bundle outcome
  escalate : ∀ escalation s' outcome,
    escalateReconciliationManual s escalation = .ok (s', outcome) →
    EscalationWritten s' escalation outcome.record

section
variable {s s' : ProjectionStore F D} {outcome : WriteOutcome (StoredReconciliationRun F)}

theorem fetchReconciliationRun_ok {events : EventTable F} {runs : ReconciliationRuns F}
    {requestId : RequestId} {row : RunRow F} {run : StoredReconciliationRun F}
    (hget : runs.get requestId = some row) (hread : readRun events row = .ok run) :
    fetchReconciliationRun events runs requestId = .ok (some run) := by
  unfold fetchReconciliationRun
  rw [hget]
  exact bind_ok.mpr ⟨run, hread, rfl⟩

theorem Kept.readsBack (h : Kept digests s) : ReadsBack digests s := by
  refine ⟨fun row hrow => ?_, fun accountId =>
    ⟨s.projections.checkpoints.get accountId, ?_⟩⟩
  · obtain ⟨run, hread⟩ := h.readable row hrow
    exact ⟨run, fetchReconciliationRun_ok (Table.get_eq_some.mpr ⟨hrow, rfl⟩) hread⟩
  · exact h.reached.projected.fetchCheckpoint (h.recorded fun _ he => he) h.coherent accountId

theorem create_written {newRun : NewReconciliationRun}
    (hok : createReconciliationRun s newRun = .ok (s', outcome)) :
    RunWritten s' newRun outcome.record := by
  obtain ⟨events, append, stored, hcreated⟩ := createReconciliationRun_ok hok
  obtain ⟨row, hget, hread⟩ := hcreated.fetched
  have hfetched : fetchReconciliationRun s'.events s'.runs newRun.request.requestId =
      .ok (some stored) := by
    rw [hcreated.events]
    exact fetchReconciliationRun_ok hget hread
  rcases hcreated.written with ⟨hinsert, hnew, rfl⟩ | ⟨-, -, hsame, -, rfl⟩
  · have hkey : (newRunRow (F := F) newRun).request.requestId = newRun.request.requestId := rfl
    rw [Table.get_insert hinsert, if_pos hkey] at hget
    cases hget
    obtain ⟨requestEvent, resultEvent, hreadable, rfl⟩ := readRun_ok.mp hread
    refine ⟨hfetched, rfl, rfl, ?_⟩
    rcases appendCoreEvent_ok.mp hcreated.appended with ⟨happend, -⟩ | ⟨-, -, _, -, -, rfl⟩
    · have hfound := hreadable.requestFound
      have hid : (StoredCoreEvent.mk newRun.eventMetadata
        (.request (F := F) newRun.request)).metadata.eventId =
          (newRunRow (F := F) newRun).requestEventId := rfl
      rw [Table.get_insert happend, if_pos hid] at hfound
      cases hfound
      exact sameEventSemantics_refl _
    · cases hnew
  · unfold sameRequestRun at hsame
    simp only [Bool.and_eq_true, decide_eq_true_eq, beq_iff_eq] at hsame
    exact ⟨hfetched, hsame.1.1, hsame.1.2, hsame.2⟩

theorem escalate_written {escalation : NewManualReconciliationEscalation}
    (hok : escalateReconciliationManual s escalation = .ok (s', outcome)) :
    EscalationWritten s' escalation outcome.record := by
  obtain ⟨existing, hget, hread, -, hcase⟩ := escalateReconciliationManual_ok hok
  rcases hcase with ⟨rfl, rfl, hmanual, hupdated⟩ | ⟨runs, stored, -, -, hput, hstored, rfl, rfl⟩
  · exact ⟨fetchReconciliationRun_ok hget hread, hmanual, hupdated⟩
  · obtain ⟨row, hrow, hread'⟩ := fetchRequiredRun_ok.mp hstored
    have hkey := Table.key_of_get hget
    have hown := hrow
    rw [← hkey] at hget hown
    rw [Table.get_put_self hput hget] at hown
    cases hown
    obtain ⟨_, _, -, rfl⟩ := readRun_ok.mp hread'
    exact ⟨fetchReconciliationRun_ok hrow hread', rfl, rfl⟩

theorem Kept.commit_written (hdist : digests.Distinct) (h : Kept digests s)
    {bundle : NewReconciliationResult F}
    (hok : commitReconciliationResult digests s bundle = .ok (s', outcome)) :
    ResultWritten digests s s' bundle outcome := by
  have hkept := h.commit hdist hok
  obtain ⟨existing, hget, hread, hvalid, hcase⟩ := commitReconciliationResult_ok.mp hok
  rcases hcase with ⟨hnone, stored, hcommitted, rfl⟩ | ⟨-, hsame, -, hevents, hruns, rfl⟩
  · obtain ⟨row, hrow, hread'⟩ := fetchRequiredRun_ok.mp hcommitted.fetched
    have hgot : s.runs.get (existing.toRunRow.settled bundle).request.requestId =
        some existing.toRunRow := by
      show s.runs.get existing.request.requestId = _
      rw [Table.key_of_get hget]
      exact hget
    have hown : row = existing.toRunRow.settled bundle := by
      have hself := Table.get_put_self hcommitted.put hgot
      have hkey := Table.key_of_get hget
      have hid : (existing.toRunRow.settled bundle).request.requestId = bundle.result.requestId :=
        hkey
      rw [hid, hrow] at hself
      exact Option.some.inj hself
    subst hown
    obtain ⟨event, hreadable, hresultEvent⟩ := readRun_result hread' rfl
    obtain ⟨_, _, -, rfl⟩ := readRun_ok.mp hread'
    refine ⟨fetchReconciliationRun_ok hrow hread', ⟨_, rfl⟩, ⟨event, hresultEvent, ?_⟩, fun _ => ?_⟩
    · have hfound := hreadable.found
      rw [Table.get_insert hcommitted.inserted, if_pos rfl] at hfound
      cases hfound
      exact sameEventSemantics_refl _
    · rw [hkept.reached.projected.fetchCheckpoint (hkept.recorded fun _ he => he) hkept.coherent]
      have hrecorded := (h.recorded fun _ he => he).extends fun _ _ hgot' =>
        Table.get_insert_of_some hcommitted.inserted hgot'
      have hfetch := h.reached.projected.fetchCheckpoint hrecorded h.coherent bundle.result.accountId
      obtain ⟨_, _, _, _, -, -, -, -, hp⟩ := (applyResult_ok hfetch).mp hcommitted.applied
      rw [hp]
      refine congrArg Except.ok ?_
      rw [Table.get_replace, if_pos (advancedCheckpoint_account fun c hc => Table.key_of_get hc)]
      rfl
  · unfold sameResultCommit at hsame
    rw [Bool.and_eq_true, Option.any_eq_true, Option.any_eq_true] at hsame
    obtain ⟨⟨columns, hcolumns, hsame⟩, event, hevent, hsemantics⟩ := hsame
    obtain ⟨hresult, hevaluation, hcompleteness⟩ := of_decide_eq_true hsame
    refine ⟨?_, ⟨columns.eventId, ?_⟩, ⟨event, hevent, hsemantics⟩, fun hnew => (nomatch hnew)⟩
    · rw [hevents, hruns]
      exact fetchReconciliationRun_ok hget hread
    · rw [← hresult, ← hevaluation, ← hcompleteness]
      exact hcolumns

/-- In every store that accepted calls lead to, all runs and checkpoints can be read, and what any
further accepted call writes is what is read. -/
theorem records_read_back (hdist : digests.Distinct) {calls : List (ProjectionCall F)}
    (hrun : acceptedRun digests (.empty F D) calls = .ok s) :
    ReadsBack digests s ∧ WritesReadBack digests s := by
  have h : Kept digests s := Kept.run hdist Kept.empty hrun
  exact ⟨h.readsBack, fun _ _ _ hok => create_written hok, fun _ _ _ hok => h.commit_written hdist hok,
    fun _ _ _ hok => escalate_written hok⟩

theorem records_read_back_sample :
    ∃ s, acceptedRun (documentDigests Int) (.empty Int (Document Int)) lateCalls = .ok s ∧
      ReadsBack (documentDigests Int) s ∧ WritesReadBack (documentDigests Int) s := by
  obtain ⟨s, hs⟩ := accepted_some (x := acceptedRun (documentDigests Int)
    (.empty Int (Document Int)) lateCalls) (by decide +kernel)
  exact ⟨s, hs, records_read_back documentDigests_distinct hs⟩

end

end Sinan.Projection
