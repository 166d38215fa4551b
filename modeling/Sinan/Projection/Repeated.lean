import Sinan.Projection.Dated

/-!
# Projections: a result committed again

A run that has its result keeps it, with its event, through every accepted call, so a commit of the
same bundle reaches the duplicate branch unless the run was updated after the bundle was made.  That
branch rebuilds the account.  The rebuild finds the same tables exactly if its events are replayable
and the rows of the account have the first receive times (`recommit_unchanged`).
-/

set_option linter.unusedSectionVars false

namespace Sinan.Projection

open Lib Store Reconciliation

variable {F D : Type} [DecidableEq F] [DecidableEq D] {digests : Digests F D}

/-! ## tables that are the same -/

/-- the tables have the same rows -/
structure SameTables (p q : Projections F D) : Prop where
  accounts : p.accounts.get = q.accounts.get
  symbols : p.symbols.get = q.symbols.get
  positions : p.positions.latest.get = q.positions.latest.get
  positionMembers : p.positions.members.get = q.positions.members.get
  orders : p.orders.latest.get = q.orders.latest.get
  orderMembers : p.orders.members.get = q.orders.members.get
  checkpoints : p.checkpoints.get = q.checkpoints.get
  bars : p.bars.get = q.bars.get

section
variable {K S : Type} [DecidableEq K] {key : S → K} {table table' : LatestTable key}
  {own : S → Prop} {times : S → Set Int}

theorem Dated.congr (hsame : table'.get = table.get) (h : Dated own times table) :
    Dated own times table' := by
  intro row hrow
  have hget : table'.get (key row.payload) = some row := Table.get_eq_some.mpr ⟨hrow, rfl⟩
  rw [hsame] at hget
  exact h row (Table.get_eq_some.mp hget).1

theorem get_eq_of_dated (mine : K → Prop) (hshown : shown table' = shown table)
    (hother : ∀ k, ¬ mine k → table'.get k = table.get k)
    (h : Dated (fun s => mine (key s)) times table)
    (h' : Dated (fun s => mine (key s)) times table') : table'.get = table.get := by
  funext k
  by_cases hk : mine k
  · have hpayload := congrFun hshown k
    unfold shown at hpayload
    cases hget : table.get k with
    | none =>
      rw [hget] at hpayload
      exact Option.map_eq_none_iff.mp hpayload
    | some row =>
      rw [hget, Option.map_some] at hpayload
      obtain ⟨row', hget', hsame⟩ := Option.map_eq_some_iff.mp hpayload
      have hmine : mine (key row.payload) := (Table.key_of_get hget).symm ▸ hk
      have hmine' : mine (key row'.payload) := (Table.key_of_get hget').symm ▸ hk
      have hrow := h row (Table.get_eq_some.mp hget).1 hmine
      have hrow' := h' row' (Table.get_eq_some.mp hget').1 hmine'
      rw [hsame] at hrow'
      have htime := hrow'.unique hrow
      rw [hget']
      cases row
      cases row'
      cases hsame
      cases htime
      rfl
  · exact hother k hk

end

section
variable {L M : List (StoredCoreEvent F)} {p p' : Projections F D} {accountId : AccountId}

theorem broughtAt_congr {S : Type} {give : EventPayload F → List S} (hsub : M ⊆ L)
    (hrest : ∀ e ∈ L, e ∉ M → give e.payload = []) : broughtAt give L = broughtAt give M := by
  funext s
  ext t
  constructor
  · rintro ⟨e, he, hs, ht⟩
    refine ⟨e, ?_, hs, ht⟩
    by_contra hout
    rw [hrest e he hout] at hs
    cases hs
  · rintro ⟨e, he, hs, ht⟩
    exact ⟨e, hsub he, hs, ht⟩

theorem Aside.positions {payload : EventPayload F} (h : Aside payload) : payload.positions = [] := by
  rcases h with ⟨bar, rfl⟩ | ⟨request, rfl⟩ <;> rfl

theorem Aside.orders {payload : EventPayload F} (h : Aside payload) : payload.orders = [] := by
  rcases h with ⟨bar, rfl⟩ | ⟨request, rfl⟩ <;> rfl

theorem DatedRows.congr (hsub : M ⊆ L) (hrest : ∀ e ∈ L, e ∉ M → Aside e.payload)
    (h : DatedRows M accountId p) : DatedRows L accountId p := by
  obtain ⟨haccounts, hsymbols, hpositions, horders⟩ := h
  rw [← broughtAt_congr hsub fun e he hout => (hrest e he hout).accounts] at haccounts
  rw [← broughtAt_congr hsub fun e he hout => (hrest e he hout).symbols] at hsymbols
  rw [← broughtAt_congr hsub fun e he hout => (hrest e he hout).positions] at hpositions
  rw [← broughtAt_congr hsub fun e he hout => (hrest e he hout).orders] at horders
  exact ⟨haccounts, hsymbols, hpositions, horders⟩

theorem SameTables.dated (hsame : SameTables p' p) (h : DatedRows L accountId p') :
    DatedRows L accountId p where
  accounts := h.accounts.congr hsame.accounts.symm
  symbols := h.symbols.congr hsame.symbols.symm
  positions := h.positions.congr hsame.positions.symm
  orders := h.orders.congr hsame.orders.symm

theorem sameTables (hsame : SameProjections p' p) (hbars : p'.bars = p.bars)
    (hothers : OthersKept accountId p p') (h : DatedRows L accountId p)
    (h' : DatedRows L accountId p') : SameTables p' p where
  accounts := get_eq_of_dated (fun k => k = accountId) hsame.accounts hothers.accounts h.accounts
    h'.accounts
  symbols := get_eq_of_dated (fun k => k.1 = accountId) hsame.symbols hothers.symbols h.symbols
    h'.symbols
  positions := get_eq_of_dated (fun k => k.1 = accountId) hsame.positions hothers.positions
    h.positions h'.positions
  positionMembers := hsame.positionMembers
  orders := get_eq_of_dated (fun k => k.1 = accountId) hsame.orders hothers.orders h.orders h'.orders
  orderMembers := hsame.orderMembers
  checkpoints := hsame.checkpoints
  bars := congrArg _ hbars

end

/-! ## an account rebuilt twice -/

section
variable {table : EventTable F} {runs : ReconciliationRuns F} {p p' : Projections F D}
  {accountId : AccountId}

theorem accountReplay_owned {e : StoredCoreEvent F} (he : e ∈ accountReplay table.rows accountId) :
    e.metadata.accountId = some accountId := (mem_accountReplay.mp he).1.2

theorem eraseAccount_dated {L : List (StoredCoreEvent F)} :
    DatedRows L accountId (eraseAccount p accountId) := by
  refine ⟨?_, ?_, ?_, ?_⟩ <;> intro row hrow hown <;>
    exact absurd hown (ne_of_beq_false (Table.mem_erase.mp hrow).2)

theorem erase_elsewhere {K S : Type} [DecidableEq K] {key : S → K} {table : LatestTable key}
    (mine : K → Bool) {k : K} (hk : mine k = false) :
    (table.erase fun row => mine (key row.payload)).get k = table.get k := by
  rw [Table.get_erase]
  cases hget : table.get k with
  | none => rfl
  | some row =>
    refine Option.filter_eq_some_iff.mpr ⟨rfl, ?_⟩
    rw [Table.key_of_get hget, hk]
    rfl

theorem eraseAccount_elsewhere : OthersKept accountId p (eraseAccount p accountId) where
  accounts _ hk := erase_elsewhere (fun k => k == accountId) (beq_eq_false_iff_ne.mpr hk)
  symbols _ hk := erase_elsewhere (fun k : AccountId × String => k.1 == accountId)
    (beq_eq_false_iff_ne.mpr hk)
  positions _ hk := erase_elsewhere (fun k : AccountId × String => k.1 == accountId)
    (beq_eq_false_iff_ne.mpr hk)
  orders _ hk := erase_elsewhere (fun k : AccountId × String => k.1 == accountId)
    (beq_eq_false_iff_ne.mpr hk)

/-- The rebuild of an account leaves every table as it is exactly if the rows of the account are dated. -/
theorem Reached.rebuild_same (hdist : digests.Distinct) (hsound : SoundEvents digests table runs)
    (h : Reached digests runs table.rows p) {report : ReconciliationProjectionRebuildReport}
    (hrebuild : rebuildAccount digests table runs p accountId = .ok (p', report)) :
    SameTables p' p ↔ DatedRows table.rows accountId p := by
  obtain ⟨hreached, hbars⟩ := (h.rebuildsAccount hdist hsound accountId).2 p' report hrebuild
  have hall : otherEvents table.rows accountId ++ accountReplay table.rows accountId ⊆ table.rows := by
    intro e he
    rcases List.mem_append.mp he with he | he
    · exact (mem_otherEvents.mp he).1
    · exact (mem_accountReplay.mp he).1.1
  have hreplay : (accountReplay table.rows accountId).foldlM (replayEvent digests table runs)
      (eraseAccount p accountId, ⟨0, 0⟩) = .ok (p', report) := by
    unfold rebuildAccount at hrebuild
    obtain ⟨_, -, hreplay⟩ := bind_ok.mp hrebuild
    exact hreplay
  obtain ⟨hdated, hothers⟩ := (h.erase hsound accountId).replays_dated hdist hsound hall
    (fun e he => (mem_accountReplay.mp he).2) (fun e he => (mem_otherEvents.mp he).2)
    (fun e he => accountReplay_owned he) (replayOrder_received _) eraseAccount_dated hreplay
  have hdated' : DatedRows table.rows accountId p' := by
    refine hdated.congr hall fun e he hout => aside_of_type (hsound.routed e he) fun htype => hout ?_
    by_cases haccount : e.metadata.accountId = some accountId
    · exact List.mem_append_right _ (mem_accountReplay.mpr ⟨⟨he, haccount⟩, htype⟩)
    · exact List.mem_append_left _ (mem_otherEvents.mpr ⟨he, haccount⟩)
  constructor
  · exact fun hsame => hsame.dated hdated'
  · intro hrows
    have hsame := hreached.projected.unique h.projected hsound.coherent h.decided
      ((hsound.recorded fun _ he => he).alike hsound.coherent)
    exact sameTables hsame hbars (eraseAccount_elsewhere.trans hothers) hrows hdated'

end

/-! ## the events of the others -/

section
variable {table : EventTable F} {runs : ReconciliationRuns F} {accountId : AccountId}
  {base events : List (StoredCoreEvent F)}

theorem observations_union {S : Type} (give : EventPayload F → List S)
    (base events : List (StoredCoreEvent F)) :
    {s | ∃ e ∈ base ++ events, s ∈ give e.payload} =
      {s | ∃ e ∈ base, s ∈ give e.payload} ∪ {s | ∃ e ∈ events, s ∈ give e.payload} := by
  ext s
  constructor
  · rintro ⟨e, he, hs⟩
    exact (List.mem_append.mp he).imp (fun he => ⟨e, he, hs⟩) fun he => ⟨e, he, hs⟩
  · rintro (⟨e, he, hs⟩ | ⟨e, he, hs⟩)
    · exact ⟨e, List.mem_append_left _ he, hs⟩
    · exact ⟨e, List.mem_append_right _ he, hs⟩

theorem undisputed_others {e : StoredCoreEvent F} (hbase : ∀ x ∈ base, OwnedSnapshots x)
    (howned : OwnedSnapshots e) (hother : ∀ x ∈ base, x.metadata.accountId ≠ e.metadata.accountId) :
    Undisputed (base ++ events) e.payload ↔ Undisputed events e.payload := by
  have haccount (s) (hs : s ∈ e.payload.accounts) : ∀ y ∈ accountObservations base,
      accountKey y ≠ accountKey s := by
    rintro y ⟨x, hx, hy⟩ hkey
    refine hother x hx ?_
    rw [(hbase x hx).accounts y hy, howned.accounts s hs]
    exact congrArg some hkey
  have hsymbol (s) (hs : s ∈ e.payload.symbols) : ∀ y ∈ symbolObservations base,
      symbolKey y ≠ symbolKey s := by
    rintro y ⟨x, hx, hy⟩ hkey
    refine hother x hx ?_
    rw [(hbase x hx).symbols y hy, howned.symbols s hs]
    exact congrArg some (congrArg Prod.fst hkey)
  have haccounts : accountObservations (base ++ events) =
      accountObservations base ∪ accountObservations events :=
    observations_union EventPayload.accounts base events
  have hsymbols : symbolObservations (base ++ events) =
      symbolObservations base ∪ symbolObservations events :=
    observations_union EventPayload.symbols base events
  constructor
  · rintro ⟨hfirst, hsecond⟩
    rw [haccounts] at hfirst
    rw [hsymbols] at hsecond
    exact ⟨fun s hs => (uncontested_union (haccount s hs)).mp (hfirst s hs),
      fun s hs => (uncontested_union (hsymbol s hs)).mp (hsecond s hs)⟩
  · rintro ⟨hfirst, hsecond⟩
    refine ⟨fun s hs => ?_, fun s hs => ?_⟩
    · rw [haccounts]
      exact (uncontested_union (haccount s hs)).mpr (hfirst s hs)
    · rw [hsymbols]
      exact (uncontested_union (hsymbol s hs)).mpr (hsecond s hs)

/-- the events of an account are replayable after those of the others if they are by themselves -/
theorem SoundEvents.replayable_account (hsound : SoundEvents digests table runs) :
    Replayable (otherEvents table.rows accountId) (accountReplay table.rows accountId) ↔
      Replayable [] (accountReplay table.rows accountId) := by
  have hone (seen : List (StoredCoreEvent F)) (e : StoredCoreEvent F)
      (he : e ∈ accountReplay table.rows accountId) :
      Undisputed (otherEvents table.rows accountId ++ seen) e.payload ↔
        Undisputed ([] ++ seen) e.payload := by
    rw [List.nil_append]
    refine undisputed_others (fun x hx => hsound.snapshots (mem_otherEvents.mp hx).1)
      (hsound.snapshots (mem_accountReplay.mp he).1.1) fun x hx => ?_
    rw [accountReplay_owned he]
    exact (mem_otherEvents.mp hx).2
  refine forall_congr' fun seen => forall_congr' fun e => forall_congr' fun rest =>
    forall_congr' fun hsplit => hone seen e ?_
  rw [hsplit]
  exact List.mem_append_right _ List.mem_cons_self

end

/-! ## results are kept -/

/-- the events stay, and the runs that have results keep them -/
structure KeepsResults (s s' : ProjectionStore F D) : Prop where
  events : Extends s.events s'.events
  runs : ∀ requestId row columns, s.runs.get requestId = some row → row.result = some columns →
    ∃ row', s'.runs.get requestId = some row' ∧ row'.request = row.request ∧
      row'.requestedAt = row.requestedAt ∧ row'.result = some columns

section
variable {s s' : ProjectionStore F D} {outcome : WriteOutcome (StoredReconciliationRun F)}

theorem KeepsResults.of_runs (hevents : Extends s.events s'.events) (hruns : s'.runs = s.runs) :
    KeepsResults s s' where
  events := hevents
  runs requestId row columns hget hresult := by
    rw [hruns]
    exact ⟨row, hget, rfl, rfl, hresult⟩

theorem KeepsResults.trans {s'' : ProjectionStore F D} (h : KeepsResults s s')
    (h' : KeepsResults s' s'') : KeepsResults s s'' where
  events := h.events.trans h'.events
  runs requestId row columns hget hresult := by
    obtain ⟨row', hget', hrequest', hat', hresult'⟩ := h.runs requestId row columns hget hresult
    obtain ⟨row'', hget'', hrequest'', hat'', hresult''⟩ := h'.runs requestId row' columns hget' hresult'
    exact ⟨row'', hget'', hrequest''.trans hrequest', hat''.trans hat', hresult''⟩

theorem KeepsResults.create {newRun : NewReconciliationRun}
    (hok : createReconciliationRun s newRun = .ok (s', outcome)) : KeepsResults s s' := by
  obtain ⟨events, append, stored, h⟩ := createReconciliationRun_ok hok
  have hext : Extends s.events s'.events := by
    rw [h.events]
    exact appendCoreEvent_extends h.appended
  rcases h.written with ⟨hinsert, -⟩ | ⟨-, -, -, hruns, -⟩
  · exact ⟨hext, fun requestId row columns hget hresult =>
      ⟨row, Table.get_insert_of_some hinsert hget, rfl, rfl, hresult⟩⟩
  · exact .of_runs hext hruns

theorem KeepsResults.commit {bundle : NewReconciliationResult F}
    (hok : commitReconciliationResult digests s bundle = .ok (s', outcome)) :
    KeepsResults s s' := by
  obtain ⟨existing, hrow, -, -, ⟨hnone, stored, hcommitted, -⟩ | ⟨-, -, -, hevents, hruns, -⟩⟩ :=
    commitReconciliationResult_ok.mp hok
  · refine ⟨fun eventId event hevent => Table.get_insert_of_some hcommitted.inserted hevent,
      fun requestId row columns hget hresult => ?_⟩
    have hkey := Table.key_of_get hrow
    rw [← hkey] at hrow
    -- the run of this result had none before
    have hother : existing.request.requestId ≠ requestId := by
      rintro rfl
      rw [hrow] at hget
      rw [← Option.some.inj hget, hnone] at hresult
      cases hresult
    refine ⟨row, ?_, rfl, rfl, hresult⟩
    rw [Table.get_put hcommitted.put hrow]
    exact (if_neg hother).trans hget
  · refine .of_runs ?_ hruns
    rw [hevents]
    exact Extends.refl _

theorem KeepsResults.escalate {escalation : NewManualReconciliationEscalation}
    (hok : escalateReconciliationManual s escalation = .ok (s', outcome)) : KeepsResults s s' := by
  obtain ⟨existing, hrow, -, -, ⟨rfl, -⟩ | ⟨runs, stored, -, -, hput, -, rfl, -⟩⟩ :=
    escalateReconciliationManual_ok hok
  · exact .of_runs (Extends.refl _) rfl
  · refine ⟨Extends.refl _, fun requestId row columns hget hresult => ?_⟩
    have hkey := Table.key_of_get hrow
    rw [← hkey] at hrow
    have hgot := Table.get_put hput hrow requestId
    by_cases hsame : existing.request.requestId = requestId
    · subst hsame
      rw [hrow] at hget
      cases hget
      exact ⟨_, hgot.trans (if_pos rfl), rfl, rfl, hresult⟩
    · exact ⟨row, (hgot.trans (if_neg hsame)).trans hget, rfl, rfl, hresult⟩

theorem KeepsResults.call {call : ProjectionCall F}
    (hok : projectionCall digests s call = .ok s') : KeepsResults s s' := by
  cases call with
  | ingest metadata value =>
    obtain ⟨outcome, hok⟩ := fst_ok.mp hok
    obtain ⟨-, events, append, happend, -, p, decision, -, rfl, -⟩ := ingestDurable_ok.mp hok
    exact .of_runs (appendCoreEvent_extends happend) rfl
  | createRun newRun =>
    obtain ⟨outcome, hok⟩ := fst_ok.mp hok
    exact .create hok
  | commitResult bundle =>
    obtain ⟨outcome, hok⟩ := fst_ok.mp hok
    exact .commit hok
  | escalateManual escalation =>
    obtain ⟨outcome, hok⟩ := fst_ok.mp hok
    exact .escalate hok

theorem KeepsResults.run {calls : List (ProjectionCall F)}
    (hok : acceptedRun digests s calls = .ok s') : KeepsResults s s' := by
  induction calls generalizing s with
  | nil =>
    cases hok
    exact .of_runs (Extends.refl _) rfl
  | cons call calls ih =>
    unfold acceptedRun at hok
    rw [List.foldlM_cons] at hok
    obtain ⟨next, hcall, hrest⟩ := bind_ok.mp hok
    exact (KeepsResults.call hcall).trans (ih hrest)

end

/-! ## the same bundle again -/

/-- The run was not updated after the bundle was made, no account or symbol snapshot of the account
contradicts the last one received before it, and the account's rows have the first receive times of
what they show. -/
structure RecommitReady (s : ProjectionStore F D) (bundle : NewReconciliationResult F) : Prop where
  fresh : ∀ run ∈ s.runs.get bundle.result.requestId, run.updatedAt ≤ bundle.eventMetadata.createdAt
  replayable : Replayable [] (accountReplay s.events.rows bundle.result.accountId)
  dated : DatedRows s.events.rows bundle.result.accountId s.projections

section
variable {s s₁ s₂ : ProjectionStore F D} {bundle : NewReconciliationResult F}
  {run run' stored : StoredReconciliationRun F}

theorem validateResultBundle_again (hrequest : run'.request = run.request)
    (hat : run'.requestedAt = run.requestedAt) (h : validateResultBundle run bundle = .ok ()) :
    validateResultBundle run' bundle = .ok () ↔ run'.updatedAt ≤ bundle.eventMetadata.createdAt := by
  unfold validateResultBundle at h ⊢
  rw [hrequest, hat]
  simp only [bind_ok, exists_unit, reject_ok, not_lt] at h ⊢
  obtain ⟨hroute, hafter, hmanual, -, hrest⟩ := h
  constructor
  · exact fun hagain => hagain.2.2.2.1
  · exact fun hfresh => ⟨hroute, hafter, hmanual, hfresh, hrest⟩

theorem Kept.committed (h : Kept digests s) {outcome : StoredReconciliationRun F}
    (hcommit : commitReconciliationResult digests s₁ bundle = .ok (s₂, .inserted outcome))
    (hkeeps : KeepsResults s₂ s) :
    ∃ run, s.runs.get bundle.result.requestId = some run.toRunRow ∧
      readRun s.events run.toRunRow = .ok run ∧
      run.request.accountId = bundle.result.accountId ∧ run.result.isSome = true ∧
      sameResultCommit run bundle = true ∧
      (validateResultBundle run bundle = .ok () ↔ run.updatedAt ≤ bundle.eventMetadata.createdAt) := by
  obtain ⟨existing, hrow, hread, hvalid, ⟨hnone, stored, hcommitted, -⟩ | ⟨-, -, -, -, -, hout⟩⟩ :=
    commitReconciliationResult_ok.mp hcommit
  · have hkey := Table.key_of_get hrow
    rw [← hkey] at hrow
    have hput := Table.get_put_self hcommitted.put hrow
    obtain ⟨row, hget, hrequest, hat, hresult⟩ := hkeeps.runs _ _ _ hput rfl
    have hevent : s₂.events.get bundle.eventMetadata.eventId =
        some ⟨bundle.eventMetadata, .result bundle.result⟩ := by
      rw [Table.get_insert hcommitted.inserted]
      exact if_pos rfl
    obtain ⟨run, hrun⟩ := h.readable row (Table.get_eq_some.mp hget).1
    have hsame := readRun_row hrun
    subst hsame
    obtain ⟨event, hreadable, hresultEvent⟩ := readRun_result hrun hresult
    have hfound := hreadable.found
    rw [hkeeps.events _ _ hevent] at hfound
    cases hfound
    refine ⟨run, ?_, hrun, ?_, ?_, ?_, validateResultBundle_again hrequest hat hvalid⟩
    · rw [← hkey]
      exact hget
    · rw [hrequest]
      exact (validateResultBundle_ok hvalid).route.2.1.symm
    · rw [hresult]
      rfl
    · unfold sameResultCommit
      rw [hresult, hresultEvent, Option.any_some, Option.any_some, sameEventSemantics_refl,
        Bool.and_true]
      exact decide_eq_true ⟨rfl, rfl, rfl⟩
  · cases hout

/-- After any accepted calls, the commit of a bundle that was inserted before returns a duplicate and
changes no table exactly if the store is ready for it. -/
theorem recommit_unchanged (hdist : digests.Distinct) {before after : List (ProjectionCall F)}
    (hbefore : acceptedRun digests (.empty F D) before = .ok s₁)
    (hcommit : commitReconciliationResult digests s₁ bundle = .ok (s₂, .inserted stored))
    (hafter : acceptedRun digests s₂ after = .ok s) :
    (∃ s' found, commitReconciliationResult digests s bundle = .ok (s', .duplicate found) ∧
        s'.events = s.events ∧ s'.runs = s.runs ∧ SameTables s'.projections s.projections) ↔
      RecommitReady s bundle := by
  have h₂ : Kept digests s₂ := (Kept.run hdist Kept.empty hbefore).commit hdist hcommit
  have h : Kept digests s := Kept.run hdist h₂ hafter
  obtain ⟨run, hget, hread, haccount, hresult, hsame, hfresh⟩ :=
    h.committed hcommit (KeepsResults.run hafter)
  obtain ⟨hsucceeds, -⟩ := h.reached.rebuildsAccount hdist h.toSoundEvents bundle.result.accountId
  rw [h.toSoundEvents.replayable_account] at hsucceeds
  have hdated {p report} (hrebuild : rebuildAccount digests s.events s.runs s.projections
      bundle.result.accountId = .ok (p, report)) : SameTables p s.projections ↔
        DatedRows s.events.rows bundle.result.accountId s.projections :=
    h.reached.rebuild_same hdist h.toSoundEvents hrebuild
  constructor
  · rintro ⟨s', found, hagain, -, -, htables⟩
    obtain ⟨run', hget', hread', hvalid, ⟨-, _, -, hout⟩ | ⟨-, -, ⟨report, hrebuild⟩, -⟩⟩ :=
      commitReconciliationResult_ok.mp hagain
    · cases hout
    · have hrow : run'.toRunRow = run.toRunRow := Option.some.inj (hget'.symm.trans hget)
      rw [hrow, hread] at hread'
      cases hread'
      rw [haccount] at hrebuild
      refine ⟨fun row hrow => ?_, hsucceeds.mp ⟨_, hrebuild⟩, (hdated hrebuild).mp htables⟩
      rw [hget] at hrow
      cases hrow
      exact hfresh.mp hvalid
  · intro hready
    obtain ⟨⟨p, report⟩, hrebuild⟩ := hsucceeds.mpr hready.replayable
    refine ⟨{ s with projections := p }, run, ?_, rfl, rfl, (hdated hrebuild).mpr hready.dated⟩
    refine commitReconciliationResult_ok.mpr ⟨run, hget, hread, hfresh.mpr (hready.fresh _ hget),
      .inr ⟨hresult, hsame, ⟨report, ?_⟩, rfl, rfl, rfl⟩⟩
    rw [haccount]
    exact hrebuild

end

/-! ## a run that was escalated meanwhile -/

/-- the run as it stands when its result is committed -/
def openedCalls : List (ProjectionCall Int) :=
  [.createRun sampleRun,
    .ingest (sampleMetadata "first" "account.snapshot" "account" 10 11)
      (.account (sampleAccount 1 10))]

/-- a result that leaves a command for attention -/
def pendingBundle : NewReconciliationResult Int :=
  { sampleBundle with evaluation := ⟨"run", "account", some 20, .pendingEvidence, ["cmd"], []⟩ }

def laterEscalation : NewManualReconciliationEscalation :=
  ⟨⟨"run", 25, "no evidence"⟩, ⟨"run", "account", some 20, .manualRequired, ["cmd"], []⟩, 30⟩

/-- a snapshot that is later than the result -/
def laterCalls : List (ProjectionCall Int) :=
  [.ingest (sampleMetadata "later" "account.snapshot" "account" 30 31)
    (.account (sampleAccount 4 30))]

/-- the store after calls, the first commit of a bundle and further calls -/
def committedRun (before after : List (ProjectionCall Int)) (bundle : NewReconciliationResult Int) :
    ProjectionCheck (ProjectionStore Int (Document Int)) := do
  let s ← acceptedRun (documentDigests Int) (.empty Int (Document Int)) before
  let (s, _) ← commitReconciliationResult (documentDigests Int) s bundle
  acceptedRun (documentDigests Int) s after

theorem inserted_some {ε α β : Type} {x : Except ε (α × WriteOutcome β)}
    (h : (x.toOption.any fun r => r.2.wasInserted) = true) : ∃ a b, x = .ok (a, .inserted b) := by
  cases x with
  | error e => cases h
  | ok r =>
    obtain ⟨a, outcome⟩ := r
    cases outcome with
    | inserted b => exact ⟨a, b, rfl⟩
    | duplicate b => cases h

theorem committedRun_some (before after : List (ProjectionCall Int))
    (bundle : NewReconciliationResult Int)
    (hcommit : ((acceptedRun (documentDigests Int) (.empty Int (Document Int)) before >>= fun s =>
      commitReconciliationResult (documentDigests Int) s bundle).toOption.any
        fun r => r.2.wasInserted) = true)
    (hrun : (committedRun before after bundle).toOption.isSome = true) :
    ∃ s₁ s₂ stored s, acceptedRun (documentDigests Int) (.empty Int (Document Int)) before = .ok s₁ ∧
      commitReconciliationResult (documentDigests Int) s₁ bundle = .ok (s₂, .inserted stored) ∧
      acceptedRun (documentDigests Int) s₂ after = .ok s ∧
      committedRun before after bundle = .ok s := by
  obtain ⟨s₂, stored, h⟩ := inserted_some hcommit
  obtain ⟨s₁, hbefore, hinserted⟩ := bind_ok.mp h
  obtain ⟨s, hs⟩ := accepted_some hrun
  refine ⟨s₁, s₂, stored, s, hbefore, hinserted, ?_, hs⟩
  unfold committedRun at hs
  rw [hbefore] at hs
  obtain ⟨_, hfirst, hs⟩ := bind_ok.mp hs
  cases hfirst
  rw [hinserted] at hs
  exact hs

theorem recommit_unchanged_sample :
    ∃ s s' found, committedRun openedCalls laterCalls sampleBundle = .ok s ∧
      commitReconciliationResult (documentDigests Int) s sampleBundle = .ok (s', .duplicate found) ∧
      SameTables s'.projections s.projections ∧ RecommitReady s sampleBundle := by
  obtain ⟨s₁, s₂, stored, s, hbefore, hcommit, hafter, hs⟩ := committedRun_some
    openedCalls laterCalls sampleBundle (by decide +kernel) (by decide +kernel)
  have hagain : (committedRun openedCalls laterCalls sampleBundle >>= fun s =>
      commitReconciliationResult (documentDigests Int) s sampleBundle >>= fun r =>
        pure (decide (r.1 = s), r.2.wasInserted)) = .ok (true, false) := by decide +kernel
  rw [hs] at hagain
  obtain ⟨_, hfirst, hagain⟩ := bind_ok.mp hagain
  cases hfirst
  obtain ⟨⟨s', outcome⟩, hrecommit, hsame⟩ := bind_ok.mp hagain
  obtain ⟨hdecided, houtcome⟩ := Prod.mk.inj (pure_ok.mp hsame)
  obtain rfl := of_decide_eq_true hdecided
  cases outcome with
  | inserted found => cases houtcome
  | duplicate found =>
    have htables : SameTables s'.projections s'.projections :=
      ⟨rfl, rfl, rfl, rfl, rfl, rfl, rfl, rfl⟩
    exact ⟨s', s', found, hs, hrecommit, htables,
      (recommit_unchanged documentDigests_distinct hbefore hcommit hafter).mp
        ⟨s', found, hrecommit, rfl, rfl, htables⟩⟩

/-- The run was updated by its escalation after the bundle was made, so the bundle is taken for stale
before it is taken for a duplicate. -/
theorem escalated_run_refuses_its_result :
    ∃ s₁ s₂ stored s,
      acceptedRun (documentDigests Int) (.empty Int (Document Int)) openedCalls = .ok s₁ ∧
      commitReconciliationResult (documentDigests Int) s₁ pendingBundle = .ok (s₂, .inserted stored) ∧
      acceptedRun (documentDigests Int) s₂ [.escalateManual laterEscalation] = .ok s ∧
      commitReconciliationResult (documentDigests Int) s pendingBundle = .error (staleRun "run") := by
  obtain ⟨s₁, s₂, stored, s, hbefore, hcommit, hafter, hs⟩ := committedRun_some
    openedCalls [.escalateManual laterEscalation] pendingBundle (by decide +kernel)
    (by decide +kernel)
  have hrefused : refusal (committedRun openedCalls [.escalateManual laterEscalation] pendingBundle >>=
      fun s => commitReconciliationResult (documentDigests Int) s pendingBundle) =
      some (staleRun "run") := by decide +kernel
  rw [hs] at hrefused
  exact ⟨s₁, s₂, stored, s, hbefore, hcommit, hafter, refusal_some hrefused⟩

end Sinan.Projection
