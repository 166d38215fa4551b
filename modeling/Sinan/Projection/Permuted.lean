import Sinan.Lib.Remaining
import Sinan.Projection.Appended

/-!
# Projections: observations in any order

A list of position facts, order facts and plain results of waiting runs is accepted exactly if each
observation is valid, no two of their events clash, and all of them together agree with the durable
facts (`Observed.run`).  None of this knows an order, and the tables are what remains of the facts
and the full sets (`observations_permuted`).
-/

set_option linter.unusedSectionVars false

namespace Sinan.Projection

open Lib Store Reconciliation

variable {F D : Type} [DecidableEq F] [DecidableEq D] {digests : Digests F D}

/-! ## the observations -/

/-- what the position and order tables are about -/
inductive Observation (F : Type) where
  | position (metadata : CoreEventMetadata) (snapshot : PositionSnapshot F)
  | order (metadata : CoreEventMetadata) (snapshot : OrderSnapshot F)
  | result (bundle : NewReconciliationResult F)
  deriving DecidableEq

def Observation.call : Observation F → ProjectionCall F
  | .position metadata snapshot => .ingest metadata (.position snapshot)
  | .order metadata snapshot => .ingest metadata (.order snapshot)
  | .result bundle => .commitResult bundle

def Observation.event : Observation F → StoredCoreEvent F
  | .position metadata snapshot => ⟨metadata, .fact (.position snapshot)⟩
  | .order metadata snapshot => ⟨metadata, .fact (.order snapshot)⟩
  | .result bundle => bundle.event

def Observation.requestId : Observation F → Option RequestId
  | .result bundle => some bundle.result.requestId
  | _ => none

/-- a result has no account and no symbol snapshots -/
def Observation.Plain : Observation F → Prop
  | .result bundle => PlainResult bundle.result
  | _ => True

/-- the run of a result has none yet -/
def Observation.Waits (s : ProjectionStore F D) : Observation F → Prop
  | .result bundle => ∀ run ∈ s.runs.get bundle.result.requestId, run.result = none
  | _ => True

/-- what an observation is checked for by itself -/
def Observation.Valid (s : ProjectionStore F D) : Observation F → Prop
  | .position metadata snapshot => validateIdentity (.position snapshot) metadata = .ok ()
  | .order metadata snapshot => validateIdentity (.order snapshot) metadata = .ok ()
  | .result bundle => ∃ existing, s.runs.get bundle.result.requestId = some existing.toRunRow ∧
      readRun s.events existing.toRunRow = .ok existing ∧
      validateResultBundle existing bundle = .ok () ∧ existing.status = .requested

/-- the results that the observations bring, with their runs -/
def broughtResults (s : ProjectionStore F D) (xs : List (Observation F)) : Results F :=
  {y | ∃ bundle run, .result bundle ∈ xs ∧ s.runs.get bundle.result.requestId = some run ∧
    y = (⟨run.request, bundle.result, bundle.evaluation, bundle.completeness⟩,
      bundle.eventMetadata.receivedAt)}

/-- the events before the observations and theirs -/
def history (s : ProjectionStore F D) (xs : List (Observation F)) : List (StoredCoreEvent F) :=
  s.events.rows ++ xs.map Observation.event

/-- the store after some observations -/
structure Observed (digests : Digests F D) (s₀ : ProjectionStore F D) (seen : List (Observation F))
    (s : ProjectionStore F D) : Prop where
  kept : Kept digests s
  extended : Extends s₀.events s.events
  sound : ∀ e ∈ s.events.rows, e ∈ s₀.events.rows ∨ ∃ x ∈ seen, e = x.event
  covered : ∀ x ∈ seen, ∃ e ∈ s.events.rows, SameFact e x.event
  runs : ∀ requestId, (∀ x ∈ seen, x.requestId ≠ some requestId) →
    s.runs.get requestId = s₀.runs.get requestId
  applied : appliedResults s.runs s.events.rows =
    appliedResults s₀.runs s₀.events.rows ∪ broughtResults s₀ seen

/-- what an observation needs of those before it -/
structure ReadyFor (digests : Digests F D) (s₀ : ProjectionStore F D)
    (before : List (StoredCoreEvent F))
    (x : Observation F) : Prop where
  valid : x.Valid s₀
  compatible : ∀ y ∈ before, Compatible y x.event
  coherent : CoherentEvents digests (before ++ [x.event])

section
variable {s₀ s s' : ProjectionStore F D} {seen xs ys : List (Observation F)} {x : Observation F}

theorem Observed.start (h : Kept digests s₀) : Observed digests s₀ [] s₀ where
  kept := h
  extended := Extends.refl _
  sound _ he := .inl he
  covered _ hx := absurd hx List.not_mem_nil
  runs _ _ := rfl
  applied := by
    refine (Set.union_eq_self_of_subset_right ?_).symm
    rintro y ⟨bundle, run, hmem, -⟩
    exact absurd hmem List.not_mem_nil

theorem Observed.payloads (h : Observed digests s₀ seen s) :
    SamePayloads s.events.rows (history s₀ seen) := by
  intro payload
  constructor
  · rintro ⟨e, he, hpayload⟩
    rcases h.sound e he with hold | ⟨x, hx, rfl⟩
    · exact ⟨e, List.mem_append_left _ hold, hpayload⟩
    · exact ⟨_, List.mem_append_right _ (List.mem_map_of_mem hx), hpayload⟩
  · rintro ⟨e, he, rfl⟩
    rcases List.mem_append.mp he with he | he
    · have hget := h.extended _ _ (Table.get_eq_some.mpr ⟨he, rfl⟩)
      exact ⟨e, (Table.get_eq_some.mp hget).1, rfl⟩
    · obtain ⟨x, hx, rfl⟩ := List.mem_map.mp he
      obtain ⟨e, he, hsame⟩ := h.covered x hx
      exact ⟨e, he, hsame.1⟩

theorem Observed.compatible (h : Observed digests s₀ seen s) {e : StoredCoreEvent F} :
    (∀ y ∈ s.events.rows, Compatible y e) ↔ ∀ y ∈ history s₀ seen, Compatible y e := by
  constructor
  · intro hall y hy
    rcases List.mem_append.mp hy with hy | hy
    · have hget := h.extended _ _ (Table.get_eq_some.mpr ⟨hy, rfl⟩)
      exact hall y (Table.get_eq_some.mp hget).1
    · obtain ⟨x, hx, rfl⟩ := List.mem_map.mp hy
      obtain ⟨d, hd, hsame⟩ := h.covered x hx
      exact hsame.compatible.mp (hall d hd)
  · intro hall y hy
    rcases h.sound y hy with hold | ⟨x, hx, rfl⟩
    · exact hall y (List.mem_append_left _ hold)
    · exact hall _ (List.mem_append_right _ (List.mem_map_of_mem hx))

theorem history_append (s₀ : ProjectionStore F D) (seen : List (Observation F)) (x : Observation F) :
    history s₀ (seen ++ [x]) = history s₀ seen ++ [x.event] := by
  rw [history, List.map_append, List.map_singleton, ← List.append_assoc]
  rfl

theorem Observed.append_sound (h : Observed digests s₀ seen s) {table : EventTable F}
    {append : WriteOutcome (StoredCoreEvent F)}
    (happend : appendCoreEvent s.events x.event = .ok (table, append)) :
    Extends s₀.events table ∧
      (∀ e ∈ table.rows, e ∈ s₀.events.rows ∨ ∃ y ∈ seen ++ [x], e = y.event) ∧
      ∀ y ∈ seen ++ [x], ∃ e ∈ table.rows, SameFact e y.event := by
  refine ⟨h.extended.trans (appendCoreEvent_extends happend), fun e he => ?_, fun y hy => ?_⟩
  · have hold (he : e ∈ s.events.rows) : e ∈ s₀.events.rows ∨ ∃ y ∈ seen ++ [x], e = y.event :=
      (h.sound e he).imp_right fun ⟨y, hy, heq⟩ => ⟨y, List.mem_append_left _ hy, heq⟩
    rcases appended_rows happend with ⟨hrows, -⟩ | ⟨rfl, -⟩
    · rw [hrows] at he
      rcases List.mem_append.mp he with he | he
      · exact hold he
      · exact .inr ⟨x, List.mem_append_right _ (List.mem_singleton_self _), List.mem_singleton.mp he⟩
    · exact hold he
  · rcases List.mem_append.mp hy with hy | hy
    · obtain ⟨e, he, hsame⟩ := h.covered y hy
      have hget := appendCoreEvent_extends happend _ _ (Table.get_eq_some.mpr ⟨he, rfl⟩)
      exact ⟨e, (Table.get_eq_some.mp hget).1, hsame⟩
    · rw [List.mem_singleton.mp hy]
      rcases appended_rows happend with ⟨hrows, -⟩ | ⟨rfl, hmem, hsame⟩
      · refine ⟨x.event, ?_, rfl, rfl⟩
        rw [hrows]
        exact List.mem_append_right _ (List.mem_singleton_self _)
      · exact ⟨_, hmem, hsame⟩

theorem broughtResults_fact (hnot : ∀ bundle, x ≠ .result bundle) :
    broughtResults s₀ (seen ++ [x]) = broughtResults s₀ seen := by
  ext y
  refine exists_congr fun bundle => exists_congr fun run => and_congr_left fun _ => ?_
  rw [List.mem_append, List.mem_singleton]
  exact or_iff_left fun h => hnot bundle h.symm

variable {bundle : NewReconciliationResult F}

theorem broughtResults_result {run : RunRow F}
    (hget : s₀.runs.get bundle.result.requestId = some run) :
    broughtResults s₀ (seen ++ [.result bundle]) =
      insert (⟨run.request, bundle.result, bundle.evaluation, bundle.completeness⟩,
        bundle.eventMetadata.receivedAt) (broughtResults s₀ seen) := by
  ext y
  constructor
  · rintro ⟨bundle', run', hmem, hrun, rfl⟩
    rcases List.mem_append.mp hmem with hmem | hmem
    · exact .inr ⟨bundle', run', hmem, hrun, rfl⟩
    · cases List.mem_singleton.mp hmem
      rw [hget] at hrun
      cases hrun
      exact .inl rfl
  · rintro (rfl | ⟨bundle', run', hmem, hrun, rfl⟩)
    · exact ⟨bundle, run, List.mem_append_right _ (List.mem_singleton_self _), hget, rfl⟩
    · exact ⟨bundle', run', List.mem_append_left _ hmem, hrun, rfl⟩

/-! ## one observation -/

theorem Observed.fact (hdist : digests.Distinct) (h : Observed digests s₀ seen s)
    {metadata : CoreEventMetadata} {value : DurableProjection F} (hplain : PlainFact value)
    (hevent : x.event = ⟨metadata, .fact value⟩) (hnot : ∀ bundle, x ≠ .result bundle)
    (hvalid : x.Valid s₀ ↔ validateIdentity value metadata = .ok ()) :
    ((∃ next, ingestDurable digests s metadata value = .ok next) ↔
        ReadyFor digests s₀ (history s₀ seen) x) ∧
      ∀ s' outcome, ingestDurable digests s metadata value = .ok (s', outcome) →
        Observed digests s₀ (seen ++ [x]) s' := by
  refine ⟨?_, fun s' outcome hok => ?_⟩
  · rw [h.kept.accepts_fact hdist hplain, ← hevent, h.compatible, ← hvalid]
    constructor
    · rintro ⟨hx, hcompatible, hcoherent⟩
      exact ⟨hx, hcompatible, (h.payloads.append rfl).coherent hcoherent⟩
    · rintro ⟨hx, hcompatible, hcoherent⟩
      exact ⟨hx, hcompatible, (h.payloads.append rfl).symm.coherent hcoherent⟩
  · have hkept := h.kept.ingest hdist hok
    obtain ⟨-, events, append, happend, -, p, decision, -, rfl, -⟩ := ingestDurable_ok.mp hok
    rw [← hevent] at happend
    obtain ⟨hextended, hsound, hcovered⟩ := h.append_sound happend
    refine ⟨hkept, hextended, hsound, hcovered, fun requestId hfree => ?_, ?_⟩
    · exact h.runs requestId fun y hy => hfree y (List.mem_append_left _ hy)
    · rw [broughtResults_fact hnot, ← h.applied]
      show appliedResults s.runs events.rows = _
      rcases appended_rows happend with ⟨hrows, -⟩ | ⟨rfl, -⟩
      · rw [hrows, hevent]
        exact appliedResults_fact rfl
      · rfl

theorem Observed.result (hdist : digests.Distinct) (hstart : Kept digests s₀)
    (h : Observed digests s₀ seen s) (hplain : PlainResult bundle.result)
    (hwaits : ∀ run ∈ s₀.runs.get bundle.result.requestId, run.result = none)
    (hfresh : ∀ y ∈ seen, y.requestId ≠ some bundle.result.requestId) :
    ((∃ next, commitReconciliationResult digests s bundle = .ok next) ↔
        ReadyFor digests s₀ (history s₀ seen) (.result bundle)) ∧
      ∀ s' outcome, commitReconciliationResult digests s bundle = .ok (s', outcome) →
        Observed digests s₀ (seen ++ [.result bundle]) s' := by
  have hruns := h.runs bundle.result.requestId hfresh
  -- the run reads as it did at the start
  have hreads {existing : StoredReconciliationRun F}
      (hget : s₀.runs.get bundle.result.requestId = some existing.toRunRow) :
      readRun s.events existing.toRunRow = .ok existing ↔
        readRun s₀.events existing.toRunRow = .ok existing := by
    constructor
    · intro hread
      obtain ⟨run, hrun⟩ := hstart.readable _ (Table.get_eq_some.mp hget).1
      have hlater := readRun_extends h.extended hrun
      rw [hread] at hlater
      cases hlater
      exact hrun
    · exact readRun_extends h.extended
  -- nothing in the store is an event of this result
  have hclash : (∀ y ∈ s.events.rows, ¬ Clash y bundle.event) ↔
      ∀ y ∈ s.events.rows, Compatible y bundle.event := by
    refine forall₂_congr fun y hy => ⟨fun hno hyes => absurd hyes hno, fun hcompatible hyes => ?_⟩
    obtain ⟨r, happlied⟩ := h.kept.known y hy bundle.result (hcompatible hyes).1
    have hresult := happlied.result
    rw [(hcompatible hyes).1] at hresult
    obtain ⟨run, columns, hget, -, hcolumns, -⟩ := happlied.run h.kept.toSoundEvents
    rw [← EventPayload.result.inj hresult, hruns] at hget
    rw [hwaits _ hget] at hcolumns
    cases hcolumns
  refine ⟨⟨?_, ?_⟩, fun s' outcome hok => ?_⟩
  · rintro ⟨⟨s', outcome⟩, hok⟩
    obtain ⟨existing, hget, hread, -⟩ := commitReconciliationResult_ok.mp hok
    have hget₀ := hget
    rw [hruns] at hget₀
    obtain ⟨hvalid, hstatus, hfree, hcoherent⟩ :=
      (h.kept.accepts_result hdist hplain hget hread (hwaits _ hget₀)).mp ⟨_, hok⟩
    exact ⟨⟨existing, hget₀, (hreads hget₀).mp hread, hvalid, hstatus⟩,
      h.compatible.mp (hclash.mp hfree), (h.payloads.append rfl).coherent hcoherent⟩
  · rintro ⟨⟨existing, hget₀, hread, hvalid, hstatus⟩, hcompatible, hcoherent⟩
    have hget := hget₀
    rw [← hruns] at hget
    exact (h.kept.accepts_result hdist hplain hget ((hreads hget₀).mpr hread) (hwaits _ hget₀)).mpr
      ⟨hvalid, hstatus, hclash.mpr (h.compatible.mpr hcompatible),
        (h.payloads.append rfl).symm.coherent hcoherent⟩
  · have hkept := h.kept.commit hdist hok
    obtain ⟨existing, hget, hread, hvalid, ⟨hnone, stored, hcommitted, -⟩ | ⟨hsome, -⟩⟩ :=
      commitReconciliationResult_ok.mp hok
    · have hget₀ := hget
      rw [hruns] at hget₀
      have hkey := Table.key_of_get hget
      have hgot : s.runs.get existing.request.requestId = some existing.toRunRow := by
        rw [hkey]
        exact hget
      have hrows := Table.ofRows_rows hcommitted.inserted
      have happend : appendCoreEvent s.events (Observation.result bundle).event =
          .ok (s'.events, .inserted bundle.event) :=
        appendCoreEvent_ok.mpr (.inl ⟨hcommitted.inserted, rfl⟩)
      obtain ⟨hextended, hsound, hcovered⟩ := h.append_sound happend
      refine ⟨hkept, hextended, hsound, hcovered, fun requestId hfree => ?_, ?_⟩
      · rw [Table.get_put hcommitted.put hgot]
        refine (if_neg fun hsame => ?_).trans
          (h.runs requestId fun y hy => hfree y (List.mem_append_left _ hy))
        refine hfree (.result bundle) (List.mem_append_right _ (List.mem_singleton_self _)) ?_
        exact congrArg some (hkey.symm.trans hsame)
      · rw [hrows, hcommitted.results h.kept.toSoundEvents hgot hnone, h.applied,
          broughtResults_result hget₀, Set.union_insert]
        rfl
    · rw [hwaits existing.toRunRow (hruns ▸ hget)] at hsome
      cases hsome

theorem Observed.observe (hdist : digests.Distinct) (hstart : Kept digests s₀)
    (h : Observed digests s₀ seen s) (hplain : x.Plain) (hwaits : x.Waits s₀)
    (hfresh : ∀ requestId, x.requestId = some requestId → ∀ y ∈ seen, y.requestId ≠ some requestId) :
    ((∃ s', projectionCall digests s x.call = .ok s') ↔ ReadyFor digests s₀ (history s₀ seen) x) ∧
      ∀ s', projectionCall digests s x.call = .ok s' → Observed digests s₀ (seen ++ [x]) s' := by
  have hfst {α β : Type} (y : ProjectionCheck (α × β)) :
      (∃ a, Prod.fst <$> y = .ok a) ↔ ∃ next, y = .ok next := by
    simp only [fst_ok, Prod.exists]
  cases x with
  | position metadata snapshot =>
    have hfact : PlainFact (.position snapshot) := ⟨rfl, rfl, fun _ => by rintro ⟨⟩⟩
    obtain ⟨hready, hnext⟩ := h.fact hdist (x := .position metadata snapshot) hfact rfl
      (fun _ => by rintro ⟨⟩) Iff.rfl
    refine ⟨(hfst _).trans hready, fun s' hok => ?_⟩
    obtain ⟨outcome, hok⟩ := fst_ok.mp hok
    exact hnext s' outcome hok
  | order metadata snapshot =>
    have hfact : PlainFact (.order snapshot) := ⟨rfl, rfl, fun _ => by rintro ⟨⟩⟩
    obtain ⟨hready, hnext⟩ := h.fact hdist (x := .order metadata snapshot) hfact rfl
      (fun _ => by rintro ⟨⟩) Iff.rfl
    refine ⟨(hfst _).trans hready, fun s' hok => ?_⟩
    obtain ⟨outcome, hok⟩ := fst_ok.mp hok
    exact hnext s' outcome hok
  | result bundle =>
    obtain ⟨hready, hnext⟩ := h.result hdist hstart hplain hwaits (hfresh _ rfl)
    refine ⟨(hfst _).trans hready, fun s' hok => ?_⟩
    obtain ⟨outcome, hok⟩ := fst_ok.mp hok
    exact hnext s' outcome hok

/-! ## a list of observations -/

/-- what a list of observations is checked for, in whatever order they come -/
structure AllReady (digests : Digests F D) (s₀ : ProjectionStore F D) (xs : List (Observation F)) :
    Prop where
  valid : ∀ x ∈ xs, x.Valid s₀
  known : ∀ x ∈ xs, ∀ y ∈ s₀.events.rows, Compatible y x.event
  apart : xs.Pairwise fun x y => Compatible x.event y.event
  coherent : CoherentEvents digests (history s₀ xs)

theorem history_perm (hperm : xs.Perm ys) : SamePayloads (history s₀ xs) (history s₀ ys) := by
  have hmem (e : StoredCoreEvent F) : e ∈ history s₀ xs ↔ e ∈ history s₀ ys := by
    unfold history
    rw [List.mem_append, List.mem_append, (hperm.map Observation.event).mem_iff]
  exact fun payload => exists_congr fun e => and_congr_left fun _ => hmem e

theorem AllReady.perm (hperm : xs.Perm ys) (h : AllReady digests s₀ xs) : AllReady digests s₀ ys where
  valid x hx := h.valid x (hperm.mem_iff.mpr hx)
  known x hx := h.known x (hperm.mem_iff.mpr hx)
  apart := (hperm.pairwise_iff fun hxy => hxy.symm).mp h.apart
  coherent := (history_perm hperm).coherent h.coherent

theorem allReady_iff (hstart : CoherentEvents digests s₀.events.rows) :
    (∀ seen x rest, xs = seen ++ x :: rest → ReadyFor digests s₀ (history s₀ seen) x) ↔
      AllReady digests s₀ xs := by
  constructor
  · induction xs using List.reverseRecOn with
    | nil =>
      intro _
      refine ⟨fun x hx => absurd hx List.not_mem_nil, fun x hx => absurd hx List.not_mem_nil,
        List.Pairwise.nil, ?_⟩
      exact hstart.mono fun e he => (List.append_nil s₀.events.rows) ▸ he
    | append_singleton xs x ih =>
      intro h
      have hbefore := ih fun seen y rest hsplit => h seen y (rest ++ [x]) (by rw [hsplit]; simp)
      have hlast := h xs x [] rfl
      refine ⟨fun y hy => ?_, fun y hy => ?_, ?_, ?_⟩
      · rcases List.mem_append.mp hy with hy | hy
        · exact hbefore.valid y hy
        · exact List.mem_singleton.mp hy ▸ hlast.valid
      · rcases List.mem_append.mp hy with hy | hy
        · exact hbefore.known y hy
        · rw [List.mem_singleton.mp hy]
          exact fun z hz => hlast.compatible z (List.mem_append_left _ hz)
      · refine List.pairwise_append.mpr ⟨hbefore.apart, List.pairwise_singleton _ _,
          fun y hy z hz => ?_⟩
        rw [List.mem_singleton.mp hz]
        exact hlast.compatible _ (List.mem_append_right _ (List.mem_map_of_mem hy))
      · rw [history_append]
        exact hlast.coherent
  · rintro h seen x rest rfl
    have hmem : x ∈ seen ++ x :: rest := List.mem_append_right _ List.mem_cons_self
    refine ⟨h.valid x hmem, fun y hy => ?_, h.coherent.mono ?_⟩
    · rcases List.mem_append.mp hy with hy | hy
      · exact h.known x hmem y hy
      · obtain ⟨z, hz, rfl⟩ := List.mem_map.mp hy
        exact (List.pairwise_append.mp h.apart).2.2 z hz x List.mem_cons_self
    · intro e he
      rw [← history_append] at he
      refine (List.mem_append.mp he).elim (fun he => List.mem_append_left _ he) fun he => ?_
      obtain ⟨z, hz, rfl⟩ := List.mem_map.mp he
      refine List.mem_append_right _ (List.mem_map_of_mem ?_)
      rcases List.mem_append.mp hz with hz | hz
      · exact List.mem_append_left _ hz
      · exact List.mem_singleton.mp hz ▸ hmem

/-- Plain observations of different waiting runs are accepted exactly if all of them are ready. -/
theorem Observed.run (hdist : digests.Distinct) (hstart : Kept digests s₀)
    (hplain : ∀ x ∈ xs, x.Plain) (hwaits : ∀ x ∈ xs, x.Waits s₀)
    (hdistinct : (xs.filterMap Observation.requestId).Nodup) :
    ((∃ s, acceptedRun digests s₀ (xs.map Observation.call) = .ok s) ↔ AllReady digests s₀ xs) ∧
      ∀ s, acceptedRun digests s₀ (xs.map Observation.call) = .ok s → Observed digests s₀ xs s := by
  have hfold : acceptedRun digests s₀ (xs.map Observation.call) =
      xs.foldlM (fun s x => projectionCall digests s x.call) s₀ := by
    unfold acceptedRun
    exact List.foldlM_map
  rw [hfold, ← allReady_iff hstart.coherent]
  refine foldlM_ready (f := fun s (x : Observation F) => projectionCall digests s x.call)
    (fun seen s => Observed digests s₀ seen s) (fun seen x => ReadyFor digests s₀ (history s₀ seen) x)
    (fun seen x rest s hsplit hx hseen => ?_) (Observed.start hstart)
  refine hseen.observe hdist hstart (hplain x hx) (hwaits x hx) fun requestId hid y hy hsame => ?_
  rw [List.nil_append] at hsplit
  rw [hsplit, List.filterMap_append, List.nodup_append] at hdistinct
  refine hdistinct.2.2 requestId (List.mem_filterMap.mpr ⟨y, hy, hsame⟩) requestId ?_ rfl
  exact List.mem_filterMap.mpr ⟨x, List.mem_cons_self, hid⟩

end

/-! ## the reference -/

section
variable {S : Type} {key : S → AccountId × String}

/-- The latest rows are what remains of the facts and the full sets, the member rows are those of the
last sets, and so are the times of the checkpoints. -/
structure MatchesSets (kind : SetKind D key) (facts : List S) (sets : List (FullSet AccountId Int S))
    (checkpoints : AccountId → Option (AccountReconciliationCheckpoint D)) (tables : SetTables key) :
    Prop where
  latest : ∀ k, shown tables.latest k = remaining key Prod.fst kind.observedAt facts sets k
  members : ∀ k, tables.members.get k = (lastSet sets k.1).bind fun w =>
    (w.members.find? fun s => key s = k).map (MemberRow.mk k.1 w.time)
  times : ∀ accountId, (checkpoints accountId).map kind.watermark =
    (lastSet sets accountId).map FullSet.time

variable {kind : SetKind D key} {facts : List S} {sets : List (FullSet AccountId Int S)}
  {tables : SetTables key} {checkpoints : AccountId → Option (AccountReconciliationCheckpoint D)}

theorem SetShown.lastSet (hcoherent : CoherentSets kind {s | s ∈ facts} {w | w ∈ sets})
    (h : SetShown kind {s | s ∈ facts} {w | w ∈ sets} checkpoints tables) (accountId : AccountId) :
    (checkpoints accountId).map kind.watermark = (lastSet sets accountId).map FullSet.time ∧
      membersOf tables accountId = (lastSet sets accountId).toList.flatMap fun w =>
        w.members.map (MemberRow.mk accountId w.time) := by
  have hlast := h.last accountId
  cases hcheckpoint : checkpoints accountId with
  | none =>
    rw [hcheckpoint] at hlast
    rw [lastSet_none.mpr hlast.2]
    exact ⟨rfl, hlast.1⟩
  | some c =>
    rw [hcheckpoint] at hlast
    obtain ⟨w, hw⟩ := hlast
    cases hfound : Lib.lastSet sets accountId with
    | none => exact absurd hw.owner (lastSet_none.mp hfound w hw.mem)
    | some v =>
      obtain ⟨hv, howner, htop⟩ := lastSet_some hfound
      have htime : w.time = v.time := le_antisymm (htop w hw.mem hw.owner) (hw.last v hv howner)
      have hmembers : w.members = v.members :=
        hcoherent.alike w hw.mem v hv (hw.owner.trans howner.symm) htime
      refine ⟨?_, ?_⟩
      · rw [Option.map_some, Option.map_some, hw.watermark, htime]
      · rw [hw.rows, htime, hmembers, Option.toList_some, List.flatMap_singleton]

theorem SetShown.reference (hcoherent : CoherentSets kind {s | s ∈ facts} {w | w ∈ sets})
    (h : SetShown kind {s | s ∈ facts} {w | w ∈ sets} checkpoints tables) :
    MatchesSets kind facts sets checkpoints tables where
  latest k := Shows.remaining hcoherent h.latest k
  times accountId := (h.lastSet hcoherent accountId).1
  members k := by
    have hmembers := (h.lastSet hcoherent k.1).2
    cases hfound : Lib.lastSet sets k.1 with
    | none =>
      rw [hfound] at hmembers
      cases hget : tables.members.get k with
      | none => rfl
      | some row =>
        have hrow := (members_get_iff.mp hget).1
        rw [hmembers] at hrow
        cases hrow
    | some w =>
      rw [hfound, Option.toList_some, List.flatMap_singleton] at hmembers
      obtain ⟨hw, howner, -⟩ := lastSet_some hfound
      show tables.members.get k = (w.members.find? fun s => key s = k).map _
      cases hfind : w.members.find? fun s => key s = k with
      | none =>
        cases hget : tables.members.get k with
        | none => rfl
        | some row =>
          obtain ⟨hrow, hkey⟩ := members_get_iff.mp hget
          rw [hmembers] at hrow
          obtain ⟨s, hs, rfl⟩ := List.mem_map.mp hrow
          have hsk : key s = k := by
            rw [← hkey]
            exact Prod.ext ((hcoherent.formed w hw s hs).1.trans howner) rfl
          exact absurd (decide_eq_true hsk) (List.find?_eq_none.mp hfind s hs)
      | some s =>
        have hs := List.mem_of_find?_eq_some hfind
        have htrue := List.find?_some hfind
        have hsk : key s = k := of_decide_eq_true htrue
        refine members_get_iff.mpr ⟨?_, ?_⟩
        · rw [hmembers]
          exact List.mem_map_of_mem hs
        · rw [← hsk]

end

/-- the tables are what remains of the position facts, the order facts and the results -/
structure MatchesReference (digests : Digests F D) (events : List (StoredCoreEvent F))
    (p : Projections F D) : Prop where
  positions : MatchesSets (positionKind digests) (events.filterMap positionFact)
    ((events.filterMap resultFact).map (fullSetOf ReconciliationResult.positions))
    p.checkpoints.get p.positions
  orders : MatchesSets (orderKind digests) (events.filterMap orderFact)
    ((events.filterMap resultFact).map (fullSetOf ReconciliationResult.orders))
    p.checkpoints.get p.orders

section
variable {events : List (StoredCoreEvent F)} {results : Results F} {p : Projections F D}

theorem positionFacts_list : positionFacts events = {s | s ∈ events.filterMap positionFact} := by
  ext s
  exact (List.mem_filterMap.trans (exists_congr fun e => and_congr_right fun _ => positionFact_eq)).symm

theorem orderFacts_list : orderFacts events = {s | s ∈ events.filterMap orderFact} := by
  ext s
  exact (List.mem_filterMap.trans (exists_congr fun e => and_congr_right fun _ => orderFact_eq)).symm

theorem fullSets_list {S : Type} (setOf : ReconciliationResult F → List S) :
    fullSets setOf (resultFacts events) =
      {w | w ∈ (events.filterMap resultFact).map (fullSetOf setOf)} := by
  ext w
  constructor
  · rintro ⟨r, ⟨e, he, hr⟩, rfl⟩
    exact List.mem_map_of_mem (List.mem_filterMap.mpr ⟨e, he, resultFact_eq.mpr hr⟩)
  · intro hw
    obtain ⟨r, hr, rfl⟩ := List.mem_map.mp hw
    obtain ⟨e, he, hresult⟩ := List.mem_filterMap.mp hr
    exact ⟨r, ⟨e, he, resultFact_eq.mp hresult⟩, rfl⟩

theorem Projected.reference (h : Projected digests events results p)
    (hcoherent : CoherentEvents digests events) : MatchesReference digests events p := by
  obtain ⟨hpositions, horders⟩ := hcoherent
  have hpositionTables := h.positions
  have horderTables := h.orders
  rw [positionSets, positionFacts_list, fullSets_list] at hpositions hpositionTables
  rw [orderSets, orderFacts_list, fullSets_list] at horders horderTables
  exact ⟨hpositionTables.reference hpositions, horderTables.reference horders⟩

theorem Projected.congr {L M : List (StoredCoreEvent F)} (hsame : SamePayloads L M)
    (h : Projected digests L results p) : Projected digests M results p := by
  obtain ⟨haccounts, hsymbols, hpositions, horders, hcheckpoints⟩ := h
  have hobservedAccounts : accountObservations L = accountObservations M :=
    hsame.observations fun payload s => s ∈ payload.accounts
  have hobservedSymbols : symbolObservations L = symbolObservations M :=
    hsame.observations fun payload s => s ∈ payload.symbols
  rw [hobservedAccounts] at haccounts
  rw [hobservedSymbols] at hsymbols
  rw [positionSets, hsame.positionFacts, hsame.resultFacts] at hpositions
  rw [orderSets, hsame.orderFacts, hsame.resultFacts] at horders
  exact ⟨haccounts, hsymbols, hpositions, horders, hcheckpoints⟩

end

/-! ## any order -/

section
variable {s₀ s s' : ProjectionStore F D} {xs ys : List (Observation F)}

theorem broughtResults_perm (hperm : xs.Perm ys) : broughtResults s₀ xs = broughtResults s₀ ys := by
  ext y
  exact exists_congr fun bundle => exists_congr fun run => and_congr_left fun _ => hperm.mem_iff

theorem Observed.same (hperm : xs.Perm ys) (h : Observed digests s₀ xs s)
    (h' : Observed digests s₀ ys s') : SameProjections s'.projections s.projections := by
  have hrows : SamePayloads s'.events.rows s.events.rows :=
    h'.payloads.trans ((history_perm hperm.symm).trans h.payloads.symm)
  have happlied : appliedResults s'.runs s'.events.rows = appliedResults s.runs s.events.rows := by
    rw [h'.applied, h.applied, broughtResults_perm hperm]
  have hprojected := h'.kept.reached.projected
  rw [happlied] at hprojected
  exact (hprojected.congr hrows).unique h.kept.reached.projected h.kept.coherent
    h.kept.reached.decided ((h.kept.recorded fun _ he => he).alike h.kept.coherent)

/-- From any store that accepted calls lead to, position facts, order facts and plain results of
different waiting runs that are accepted in one order are accepted in every order, with the same
tables, which are what remains of all facts and full sets. -/
theorem observations_permuted (hdist : digests.Distinct) {calls : List (ProjectionCall F)}
    (hrun : acceptedRun digests (.empty F D) calls = .ok s₀) (hplain : ∀ x ∈ xs, x.Plain)
    (hwaits : ∀ x ∈ xs, x.Waits s₀) (hdistinct : (xs.filterMap Observation.requestId).Nodup)
    (haccepted : acceptedRun digests s₀ (xs.map Observation.call) = .ok s) (hperm : xs.Perm ys) :
    ∃ s', acceptedRun digests s₀ (ys.map Observation.call) = .ok s' ∧
      SameProjections s'.projections s.projections ∧
      MatchesReference digests (history s₀ xs) s.projections := by
  have hstart : Kept digests s₀ := Kept.run hdist Kept.empty hrun
  obtain ⟨hready, hobserved⟩ := Observed.run hdist hstart hplain hwaits hdistinct
  have hfirst := hobserved s haccepted
  have hplain' : ∀ x ∈ ys, x.Plain := fun x hx => hplain x (hperm.mem_iff.mpr hx)
  have hwaits' : ∀ x ∈ ys, x.Waits s₀ := fun x hx => hwaits x (hperm.mem_iff.mpr hx)
  obtain ⟨hready', hobserved'⟩ := Observed.run hdist hstart hplain' hwaits'
    ((hperm.filterMap _).nodup_iff.mp hdistinct)
  obtain ⟨s', haccepted'⟩ := hready'.mpr ((hready.mp ⟨s, haccepted⟩).perm hperm)
  refine ⟨s', haccepted', hfirst.same hperm (hobserved' s' haccepted'), ?_⟩
  exact (hfirst.kept.reached.projected.congr hfirst.payloads).reference
    (hfirst.payloads.coherent hfirst.kept.coherent)

end

/-! ## a run and its positions in two orders -/

def samplePosition (positionId : PositionId) (lots observedAt : Int) : PositionSnapshot Int :=
  ⟨"account", "XAUUSD", positionId, .buy, lots, 1900, none, none, 0, observedAt⟩

def positionMetadata (eventId : String) (observedAt receivedAt : Int) : CoreEventMetadata :=
  sampleMetadata eventId "position.snapshot" "position" observedAt receivedAt

/-- a result with one position -/
def plainBundle : NewReconciliationResult Int :=
  { sampleBundle with
    result := ⟨"run", "account", none, none, 20, none, [samplePosition "kept" 1 20], [], [], []⟩ }

/-- a position that the result does not have, the result, and a position after it -/
def sampleObservations : List (Observation Int) :=
  [.position (positionMetadata "gone" 10 11) (samplePosition "gone" 1 10), .result plainBundle,
    .position (positionMetadata "new" 30 31) (samplePosition "new" 2 30)]

theorem observations_permuted_sample :
    ∃ s₀ s s', acceptedRun (documentDigests Int) (.empty Int (Document Int)) [.createRun sampleRun] =
        .ok s₀ ∧
      acceptedRun (documentDigests Int) s₀ (sampleObservations.map Observation.call) = .ok s ∧
      acceptedRun (documentDigests Int) s₀ (sampleObservations.reverse.map Observation.call) = .ok s' ∧
      SameProjections s'.projections s.projections ∧
      MatchesReference (documentDigests Int) (history s₀ sampleObservations) s.projections := by
  have hwaiting : ((acceptedRun (documentDigests Int) (.empty Int (Document Int))
      [.createRun sampleRun]).toOption.all fun s => (s.runs.get "run").all fun run =>
        run.result.isNone) = true := by decide +kernel
  obtain ⟨s, hs⟩ := accepted_some (x := acceptedRun (documentDigests Int)
    (.empty Int (Document Int)) [.createRun sampleRun] >>= fun s₀ =>
      acceptedRun (documentDigests Int) s₀ (sampleObservations.map Observation.call))
    (by decide +kernel)
  obtain ⟨s₀, hrun, haccepted⟩ := bind_ok.mp hs
  rw [hrun] at hwaiting
  have hwaits : ∀ x ∈ sampleObservations, x.Waits s₀ := by
    intro x hx
    simp only [sampleObservations, List.mem_cons, List.not_mem_nil, or_false] at hx
    rcases hx with rfl | rfl | rfl
    · trivial
    · intro run hget
      have hall := hwaiting
      rw [Except.toOption, Option.all_some] at hall
      have hnone := (Option.all_eq_true _ _).mp hall run hget
      exact Option.isNone_iff_eq_none.mp hnone
    · trivial
  have hplain : ∀ x ∈ sampleObservations, x.Plain := by
    intro x hx
    simp only [sampleObservations, List.mem_cons, List.not_mem_nil, or_false] at hx
    rcases hx with rfl | rfl | rfl
    · trivial
    · exact ⟨rfl, rfl⟩
    · trivial
  obtain ⟨s', haccepted', hsame, hreference⟩ := observations_permuted documentDigests_distinct hrun
    hplain hwaits (by decide) haccepted (List.reverse_perm sampleObservations).symm
  exact ⟨s₀, s, s', hrun, haccepted, haccepted', hsame, hreference⟩

end Sinan.Projection
