import Sinan.Reconciliation.Escalation
import Sinan.Reconciliation.Scope

/-!
# What is loaded and what is accepted

The store includes a command by the session it was delivered on; the evaluation asks the payload of
the command for the route.  The two agree exactly where every command of the scope names the route of
the run itself and none of their states is newer than the receipt of the result.
-/

set_option linter.unusedSectionVars false

namespace Sinan.Reconciliation

open Lib Execution Store Sinan.Core

section
variable {P F : Type}

/-! ## the scope of a run -/

/-- the payload of the command names every component of the route that the run has -/
def NamesRoute (run : StoredRun F) (command : ExecutionCommand F) : Prop :=
  (∀ terminalId, run.request.terminalId = some terminalId → command.terminalId = some terminalId) ∧
  ∀ clientId, run.request.clientId = some clientId → command.clientId = some clientId

/-- the command was delivered on a session of the route -/
def DeliveredOnRoute (d : DeliveryTables P) (run : StoredRun F) (commandId : CommandId) : Prop :=
  ∃ attempt ∈ d.attempts.rows, attempt.subject.commandId = some commandId ∧
    ∃ sessionId session, attempt.sessionId = some sessionId ∧
      d.sessions.get sessionId = some session ∧ session.accountId = run.request.accountId ∧
      (∀ terminalId, run.request.terminalId = some terminalId →
        session.terminalId = some terminalId) ∧
      ∀ clientId, run.request.clientId = some clientId → session.clientId = clientId

/-- a command row that the run covers: one it lists, or without a list one of its account and route -/
structure Included (t : ScopeTables P F) (run : StoredRun F) (row : CommandRow F) : Prop where
  listed : ∀ ids, run.request.commandIds = some ids → row.command.commandId ∈ ids
  routed : run.request.commandIds = none → row.command.accountId = run.request.accountId ∧
    (NamesRoute run row.command ∨ DeliveredOnRoute t.delivery run row.command.commandId)

/-- every command of the run names the route, and none has gone on since the result arrived -/
def Acceptable (t : ScopeTables P F) (run : StoredRun F) (receivedAt : Int) : Prop :=
  ∀ row ∈ t.core.commands.rows, Included t run row → NamesRoute run row.command ∧
    ∀ s, t.core.states.get row.command.commandId = some s → s.updatedAt ≤ receivedAt

theorem sqlMatches_iff {requested column : Option String} :
    sqlMatches requested column = true ↔ ∀ value, requested = some value → column = some value := by
  cases requested with
  | none => exact ⟨fun _ value h => (nomatch h), fun _ => rfl⟩
  | some asked =>
    show (column == some asked) = true ↔ _
    rw [beq_iff_eq]
    exact ⟨fun h value hvalue => h.trans hvalue, fun h => h asked rfl⟩

variable {command : ExecutionCommand F}

theorem payloadRouteMatches_iff {run : StoredRun F} :
    payloadRouteMatches run command = true ↔ NamesRoute run command := by
  unfold payloadRouteMatches NamesRoute
  rw [Bool.and_eq_true, sqlMatches_iff, sqlMatches_iff]

theorem hasDeliveryRouteProof_iff {d : DeliveryTables P} {run : StoredRun F} {commandId : CommandId} :
    hasDeliveryRouteProof d run commandId = true ↔ DeliveredOnRoute d run commandId := by
  unfold hasDeliveryRouteProof DeliveredOnRoute attemptOnRoute
  simp only [List.any_eq_true, Bool.and_eq_true, beq_iff_eq, Option.any_eq_true, sqlMatches_iff,
    Option.bind_eq_some_iff, Option.some.injEq]
  constructor
  · rintro ⟨attempt, hmem, hsubject, session, ⟨sessionId, hid, hsession⟩, ⟨haccount, hterminal⟩, hclient⟩
    exact ⟨attempt, hmem, hsubject, sessionId, session, hid, hsession, haccount, hterminal, hclient⟩
  · rintro ⟨attempt, hmem, hsubject, sessionId, session, hid, hsession, haccount, hterminal, hclient⟩
    exact ⟨attempt, hmem, hsubject, session, ⟨sessionId, hid, hsession⟩, ⟨haccount, hterminal⟩, hclient⟩

/-- an included command lies on the account of the run, and on its route in one of the two senses -/
theorem validateReconciliationCommandRoute_ok {d : DeliveryTables P} {run : StoredRun F} :
    validateReconciliationCommandRoute d run command = .ok () ↔
      command.accountId = run.request.accountId ∧
        (NamesRoute run command ∨ DeliveredOnRoute d run command.commandId) := by
  unfold validateReconciliationCommandRoute
  rw [← payloadRouteMatches_iff, ← hasDeliveryRouteProof_iff]
  dsimp only
  rw [reject_ok, Bool.not_eq_false]
  by_cases haccount : command.accountId = run.request.accountId
  · rw [beq_iff_eq.mpr haccount, Bool.true_and]
    cases payloadRouteMatches run command
    · exact ⟨fun h => ⟨haccount, .inr h⟩, fun h => h.2.resolve_left Bool.false_ne_true⟩
    · exact ⟨fun _ => ⟨haccount, .inl rfl⟩, fun _ => rfl⟩
  · rw [beq_eq_false_iff_ne.mpr haccount, Bool.false_and]
    exact ⟨fun h => absurd h Bool.false_ne_true, fun h => absurd h.1 haccount⟩

theorem mem_loadRouteCommandIds {t : ScopeTables P F} {run : StoredRun F} {commandId : CommandId} :
    commandId ∈ loadRouteCommandIds t run ↔ ∃ row, t.core.commands.get commandId = some row ∧
      row.command.accountId = run.request.accountId ∧
        (NamesRoute run row.command ∨ DeliveredOnRoute t.delivery run commandId) := by
  unfold loadRouteCommandIds
  simp only [mem_sortBy, List.mem_map, List.mem_filter, Bool.and_eq_true, Bool.or_eq_true, beq_iff_eq,
    payloadRouteMatches_iff, hasDeliveryRouteProof_iff, Table.get_eq_some]
  constructor
  · rintro ⟨row, ⟨hmem, hroute⟩, rfl⟩
    exact ⟨row, ⟨hmem, rfl⟩, hroute⟩
  · rintro ⟨row, ⟨hmem, rfl⟩, hroute⟩
    exact ⟨row, ⟨hmem, hroute⟩, rfl⟩

theorem nodup_loadRouteCommandIds (t : ScopeTables P F) (run : StoredRun F) :
    (loadRouteCommandIds t run).Nodup := by
  unfold loadRouteCommandIds
  refine (sortBy_perm id _).nodup_iff.mpr ?_
  exact (List.filter_sublist.map _).nodup t.core.commands.keyed

/-! ## the invariant -/

/-- every command has a state, which its lifecycle made -/
def Lifecycle (commands : CommandTable F) (states : StateTable) : Prop :=
  ∀ c row, commands.get c = some row →
    ∃ s, states.get c = some s ∧ Alive row.command row.createdAt s

structure Consistent (t : ScopeTables P F) : Prop where
  lifecycle : Lifecycle t.core.commands t.core.states
  requests : ∀ id run, t.core.runs.get id = some run →
    validateRequest run.request run.requestedAt = .ok ()

variable [DecidableEq P] [DecidableEq F] [F64 F]

omit [DecidableEq P] [F64 F] in
theorem commitCommand_ok {t t' : OutboundTables P F (RunTable F)} {row : CommandRow F}
    (h : commitCommand t row = .ok t') (hlife : Lifecycle t.commands t.states) :
    Lifecycle t'.commands t'.states ∧ t'.runs = t.runs := by
  simp only [commitCommand, bind_ok, ofCommand_ok] at h
  obtain ⟨state, hstate, h⟩ := h
  have halive := initialCommandState_alive hstate
  unfold insertCommand at h
  split at h
  · cases h
  · simp only [bind_ok, need_ok, pure_ok] at h
    obtain ⟨commands, hcommands, states, hstates, rfl⟩ := h
    refine ⟨fun c r hr => ?_, rfl⟩
    change commands.get c = some r at hr
    rw [Table.get_insert hcommands] at hr
    by_cases hc : row.command.commandId = c
    · rw [if_pos hc] at hr
      cases hr
      refine ⟨state, ?_, halive⟩
      show states.get c = some state
      rw [Table.get_insert hstates, if_pos (halive.valid.commandId.trans hc)]
    · rw [if_neg hc] at hr
      obtain ⟨s, hs, hkeep⟩ := hlife c r hr
      exact ⟨s, Table.get_insert_of_some hstates hs, hkeep⟩

omit [DecidableEq P] in
theorem applyEvidence_alive {t t' : OutboundTables P F (RunTable F)} {c : CommandId}
    {evidence : CommandEvidence F} (h : applyEvidence t c evidence = .ok t')
    (hlife : Lifecycle t.commands t.states) :
    Lifecycle t'.commands t'.states ∧ t'.runs = t.runs := by
  simp only [applyEvidence, requiredState, bind_ok, need_ok] at h
  obtain ⟨row, hrow, current, hcurrent, next, hnext, h⟩ := h
  obtain ⟨s, hs, halive⟩ := hlife c row hrow
  rw [hcurrent] at hs
  cases hs
  split at h
  · cases h
    exact ⟨hlife, rfl⟩
  · rw [transitionState, ofCommand_ok, map_ok] at hnext
    obtain ⟨outcome, houtcome, rfl⟩ := hnext
    have hstep := commandStep_alive halive evidence
    unfold commandStep at hstep
    rw [houtcome] at hstep
    simp only [writeState, bind_ok, ofStore_ok, pure_ok] at h
    obtain ⟨states, hstates, rfl⟩ := h
    have hafter := updateExecutionCommandState_ok hstates
    have hid := Table.key_of_get hrow
    refine ⟨fun k r hr => ?_, rfl⟩
    show ∃ s, states.get k = some s ∧ Alive r.command r.createdAt s
    rw [hafter k]
    by_cases hk : outcome.state.commandId = k
    · rw [if_pos hk]
      have hsame : c = k := hid.symm.trans (hstep.valid.commandId.symm.trans hk)
      subst hsame
      change t.commands.get c = some r at hr
      rw [hrow] at hr
      cases hr
      exact ⟨outcome.state, rfl, hstep⟩
    · rw [if_neg hk]
      exact hlife k r hr

omit [DecidableEq P] [F64 F] in
theorem createReconciliationRun_ok {runs runs' : RunTable F} {request : ReconciliationRequest}
    {requestedAt : Int} (h : createReconciliationRun runs request requestedAt = .ok runs')
    (hvalid : ∀ id run, runs.get id = some run →
      validateRequest run.request run.requestedAt = .ok ()) :
    ∀ id run, runs'.get id = some run → validateRequest run.request run.requestedAt = .ok () := by
  simp only [createReconciliationRun, bind_ok, exists_unit] at h
  obtain ⟨hrequest, h⟩ := h
  split at h
  · rename_i inserted hinsert
    cases h
    intro id run hrun
    rw [Table.get_insert hinsert] at hrun
    split at hrun
    · cases hrun
      exact hrequest
    · exact hvalid id run hrun
  · simp only [bind_ok, exists_unit, pure_ok] at h
    obtain ⟨_, -, _, -, -, rfl⟩ := h
    exact hvalid

omit [DecidableEq P] [F64 F] [DecidableEq F] in
theorem storeResult_ok {runs runs' : RunTable F} {result : ReconciliationResult F}
    (h : storeResult runs result = .ok runs')
    (hvalid : ∀ id run, runs.get id = some run →
      validateRequest run.request run.requestedAt = .ok ()) :
    ∀ id run, runs'.get id = some run → validateRequest run.request run.requestedAt = .ok () := by
  simp only [storeResult, bind_ok, need_ok, exists_unit] at h
  obtain ⟨stored, hstored, -, hput⟩ := h
  have hself := Table.get_self hstored
  intro id run hrun
  rw [Table.get_put hput hself] at hrun
  split at hrun
  · cases hrun
    exact hvalid _ stored hstored
  · exact hvalid id run hrun

theorem Consistent.step (codec : WireCodec P) {t : ScopeTables P F} (h : Consistent t)
    (call : ScopeCall P F) : Consistent (scopeStep codec t call) := by
  cases call with
  | command row =>
    simp only [scopeStep]
    cases hcommit : commitCommand t.core row with
    | error e => exact h
    | ok core =>
      obtain ⟨hlife, hruns⟩ := commitCommand_ok hcommit h.lifecycle
      refine ⟨hlife, fun id run hrun => h.requests id run ?_⟩
      rw [← hruns]
      exact hrun
  | evidence c evidence =>
    simp only [scopeStep]
    cases happly : applyEvidence t.core c evidence with
    | error e => exact h
    | ok core =>
      obtain ⟨hlife, hruns⟩ := applyEvidence_alive happly h.lifecycle
      refine ⟨hlife, fun id run hrun => h.requests id run ?_⟩
      rw [← hruns]
      exact hrun
  | delivery call => exact ⟨h.lifecycle, h.requests⟩
  | request request requestedAt =>
    simp only [scopeStep]
    cases hcreate : createReconciliationRun t.core.runs request requestedAt with
    | error e => exact ⟨h.lifecycle, h.requests⟩
    | ok runs => exact ⟨h.lifecycle, createReconciliationRun_ok hcreate h.requests⟩
  | result result =>
    simp only [scopeStep]
    cases hstore : storeResult t.core.runs result with
    | error e => exact ⟨h.lifecycle, h.requests⟩
    | ok runs => exact ⟨h.lifecycle, storeResult_ok hstore h.requests⟩
  | others plans events works => exact ⟨h.lifecycle, h.requests⟩

theorem consistent_scopeAt (codec : WireCodec P) (plans : Tables P F) (parents : Parents P)
    (calls : List (ScopeCall P F)) (k : Nat) : Consistent (scopeAt codec plans parents calls k) :=
  before_invariant (scopeStep codec) (emptyScope plans parents) calls
    ⟨fun _ _ h => (nomatch h), fun _ _ h => (nomatch h)⟩ (fun _ call h => h.step codec call) k

/-! ## what is loaded -/

section
variable {t : ScopeTables P F} {run : StoredRun F}

omit [DecidableEq P] [DecidableEq F] [F64 F]

theorem scopedCommand_ok {c : CommandId} {item : StoredExecutionCommandLifecycle F} :
    scopedCommand t run c = .ok item ↔
      t.core.commands.get c = some item.command ∧
      (item.command.command.accountId = run.request.accountId ∧
        (NamesRoute run item.command.command ∨
          DeliveredOnRoute t.delivery run item.command.command.commandId)) ∧
      t.core.states.get c = some item.state ∧
      validatePersistedCommandState item.state item.command.toStoredExecutionCommand = .ok () := by
  simp only [scopedCommand, bind_ok, need_ok, exists_unit, mapError_ok, pure_ok,
    validateReconciliationCommandRoute_ok]
  constructor
  · rintro ⟨command, hcommand, hroute, state, hstate, hpersisted, rfl⟩
    exact ⟨hcommand, hroute, hstate, hpersisted⟩
  · rintro ⟨hcommand, hroute, hstate, hpersisted⟩
    exact ⟨item.command, hcommand, hroute, item.state, hstate, hpersisted, rfl⟩

/-- a loaded snapshot is about the stored run and holds one command for each id of the scope -/
structure Loaded (t : ScopeTables P F) (run : StoredRun F)
    (commands : List (StoredExecutionCommandLifecycle F))
    (snapshot : ReconciliationEvaluationSnapshot F) : Prop where
  source : snapshot.run = run
  valid : validateRequest run.request run.requestedAt = .ok ()
  each : List.Forall₂ (fun c item => scopedCommand t run c = .ok item) (scopedIds t run) commands
  sorted : snapshot.commands = sortBy StoredExecutionCommandLifecycle.commandId commands

theorem load_loaded {requestId : RequestId} {snapshot : ReconciliationEvaluationSnapshot F}
    (hrun : t.core.runs.get requestId = some run)
    (h : loadReconciliationEvaluationSnapshot t requestId = .ok (some snapshot)) :
    ∃ commands, Loaded t run commands snapshot := by
  simp only [loadReconciliationEvaluationSnapshot, fetchReconciliationRun, hrun, bind_ok,
    exists_unit, mapError_ok, pure_ok] at h
  obtain ⟨found, ⟨hrequest, rfl⟩, h⟩ := h
  simp only [bind_ok, pure_ok, collect_ok, Option.some.injEq] at h
  obtain ⟨commands, hcommands, rfl⟩ := h
  exact ⟨commands, rfl, hrequest, hcommands, rfl⟩

variable {commands : List (StoredExecutionCommandLifecycle F)}
  {snapshot : ReconciliationEvaluationSnapshot F}

theorem Loaded.ids (h : Loaded t run commands snapshot) :
    commands.map StoredExecutionCommandLifecycle.commandId = scopedIds t run := by
  have hall := h.each
  generalize scopedIds t run = ids at hall ⊢
  clear h
  induction hall with
  | nil => rfl
  | cons hitem _ ih =>
    have hkey := Table.key_of_get (scopedCommand_ok.mp hitem).1
    rw [List.map_cons, ih]
    exact congrArg (· :: _) hkey

theorem Loaded.mem (h : Loaded t run commands snapshot) {item : ReconciliationCommand F} :
    item ∈ snapshot.scope ↔ ∃ c ∈ scopedIds t run, ∃ row state,
      scopedCommand t run c = .ok ⟨row, state⟩ ∧ item = ⟨row.command, state⟩ := by
  unfold ReconciliationEvaluationSnapshot.scope
  rw [h.sorted, List.mem_map]
  constructor
  · rintro ⟨loaded, hloaded, rfl⟩
    obtain ⟨c, hc, hitem⟩ := forall₂_mem_right h.each (mem_sortBy.mp hloaded)
    exact ⟨c, hc, loaded.command, loaded.state, hitem, rfl⟩
  · rintro ⟨c, hc, row, state, hitem, rfl⟩
    obtain ⟨loaded, hloaded, hsame⟩ := forall₂_mem_right h.each.flip hc
    change scopedCommand t run c = .ok loaded at hsame
    rw [hitem] at hsame
    cases hsame
    exact ⟨⟨row, state⟩, mem_sortBy.mpr hloaded, rfl⟩

theorem Loaded.commandIds (h : Loaded t run commands snapshot) :
    snapshot.scope.map ReconciliationCommand.commandId = (scopedIds t run).insertionSort (· ≤ ·) := by
  unfold ReconciliationEvaluationSnapshot.scope
  rw [List.map_map, h.sorted, ← h.ids, ← map_sortBy]
  rfl

theorem chain_of_request {ids : List CommandId}
    (h : validateRequest run.request run.requestedAt = .ok ())
    (hids : run.request.commandIds = some ids) : ids.Pairwise (· < ·) := by
  simp only [validateRequest, bind_ok, exists_unit, reject_ok] at h
  obtain ⟨-, -, -, hlist, -⟩ := h
  by_contra hchain
  refine hlist ⟨ids, hids, .inr (.inl fun hok => hchain ?_)⟩
  exact List.isChain_iff_pairwise.mp hok

theorem Loaded.nodup (h : Loaded t run commands snapshot) : (scopedIds t run).Nodup := by
  unfold scopedIds
  cases hids : run.request.commandIds with
  | none => exact nodup_loadRouteCommandIds t run
  | some ids => exact (chain_of_request h.valid hids).imp fun hab => ne_of_lt hab

theorem scoped_iff_included {row : CommandRow F} {state : ExecutionCommandState} :
    (∃ c ∈ scopedIds t run, scopedCommand t run c = .ok ⟨row, state⟩) ↔
      row ∈ t.core.commands.rows ∧ Included t run row ∧
        scopedCommand t run row.command.commandId = .ok ⟨row, state⟩ := by
  constructor
  · rintro ⟨c, hc, hitem⟩
    obtain ⟨hrow, hroute, -⟩ := scopedCommand_ok.mp hitem
    obtain ⟨hmem, rfl⟩ := Table.get_eq_some.mp hrow
    refine ⟨hmem, ⟨fun ids hids => ?_, fun _ => hroute⟩, hitem⟩
    unfold scopedIds at hc
    rw [hids, Option.getD_some] at hc
    exact hc
  · rintro ⟨hmem, hincluded, hitem⟩
    refine ⟨_, ?_, hitem⟩
    unfold scopedIds
    cases hids : run.request.commandIds with
    | some ids => exact hincluded.listed ids hids
    | none =>
      have hrow : t.core.commands.get row.command.commandId = some row :=
        Table.get_eq_some.mpr ⟨hmem, rfl⟩
      exact mem_loadRouteCommandIds.mpr ⟨row, hrow, hincluded.routed hids⟩

theorem Consistent.loads (h : Consistent t) {requestId : RequestId}
    (hrun : t.core.runs.get requestId = some run) (hwide : run.request.commandIds = none) :
    ∃ snapshot, loadReconciliationEvaluationSnapshot t requestId = .ok (some snapshot) := by
  have hscoped : ∀ c ∈ scopedIds t run, ∃ item, scopedCommand t run c = .ok item := by
    intro c hc
    unfold scopedIds at hc
    rw [hwide, Option.getD_none] at hc
    obtain ⟨row, hrow, haccount, hroute⟩ := mem_loadRouteCommandIds.mp hc
    obtain ⟨s, hs, halive⟩ := h.lifecycle c row hrow
    have hkey := Table.key_of_get hrow
    have hid : row.command.commandId = c := hkey
    refine ⟨⟨row, s⟩, scopedCommand_ok.mpr ⟨hrow, ⟨haccount, ?_⟩, hs, halive.valid.persisted halive.created⟩⟩
    show NamesRoute run row.command ∨ DeliveredOnRoute t.delivery run row.command.commandId
    rw [hid]
    exact hroute
  obtain ⟨commands, hcommands⟩ := exists_forall₂ hscoped
  refine ⟨⟨run, sortBy StoredExecutionCommandLifecycle.commandId commands,
    sortBy eventKey ((scopedIds t run).flatMap (loadCommandEvents t))⟩, ?_⟩
  simp only [loadReconciliationEvaluationSnapshot, fetchReconciliationRun, hrun, bind_ok, exists_unit,
    mapError_ok, pure_ok]
  refine ⟨some run, ⟨h.requests requestId run hrun, rfl⟩, ?_⟩
  simp only [bind_ok, pure_ok, collect_ok]
  exact ⟨commands, hcommands, rfl⟩

end

/-! ## what is accepted -/

section
variable {t : ScopeTables P F} {run : StoredRun F}
  {commands : List (StoredExecutionCommandLifecycle F)}
  {snapshot : ReconciliationEvaluationSnapshot F} {receivedAt : Int}

omit [DecidableEq P] [DecidableEq F]

omit [F64 F] in
theorem namesRoute_iff {command : ExecutionCommand F} :
    NamesRoute run command ↔
      (run.request.terminalId.isSome = true → run.request.terminalId = command.terminalId) ∧
      (run.request.clientId.isSome = true → run.request.clientId = command.clientId) := by
  unfold NamesRoute
  have hcomponent : ∀ asked actual : Option String,
      (∀ value, asked = some value → actual = some value) ↔ (asked.isSome = true → asked = actual) := by
    intro asked actual
    cases asked with
    | none => exact ⟨fun _ h => (nomatch h), fun _ _ h => (nomatch h)⟩
    | some value =>
      exact ⟨fun h _ => (h value rfl).symm, fun h other hother => (h rfl).symm.trans hother⟩
  exact and_congr (hcomponent _ _) (hcomponent _ _)

theorem Loaded.accepted (h : Loaded t run commands snapshot) (hconsistent : Consistent t)
    (hrequest : validateRequestContext run.context = .ok ()) (hreceived : run.requestedAt ≤ receivedAt)
    (hacceptable : Acceptable t run receivedAt) :
    InScope run.context receivedAt snapshot.scope
      (sortBy ReconciliationCommand.commandId snapshot.scope) where
  request := hrequest
  reached := hreceived
  distinct := by
    rw [h.commandIds]
    exact (List.perm_insertionSort _ _).nodup_iff.mpr h.nodup
  valid := by
    intro item hitem
    obtain ⟨c, hc, row, state, hloaded, rfl⟩ := h.mem.mp hitem
    obtain ⟨hmem, hincluded, hown⟩ := scoped_iff_included.mp ⟨c, hc, hloaded⟩
    obtain ⟨hrow, ⟨haccount, -⟩, hstate, -⟩ := scopedCommand_ok.mp hown
    obtain ⟨hnames, htime⟩ := hacceptable row hmem hincluded
    obtain ⟨s, hs, halive⟩ := hconsistent.lifecycle _ row hrow
    rw [hstate] at hs
    cases hs
    obtain ⟨hterminal, hclient⟩ := namesRoute_iff.mp hnames
    exact validateScopedCommand_ok.mpr
      ⟨halive.valid, haccount, hterminal, hclient, htime state hstate⟩
  targeted := by
    intro ids hids
    have hlist : run.request.commandIds = some ids := hids
    have hscope : scopedIds t run = ids := by
      unfold scopedIds
      rw [hlist, Option.getD_some]
    rw [map_sortBy, h.commandIds, hscope]
    have hsorted : ids.insertionSort (· ≤ ·) = ids :=
      ((chain_of_request h.valid hlist).imp fun hab => le_of_lt hab).insertionSort_eq
    rw [hsorted, hsorted]
  sorted := rfl

theorem Loaded.acceptable (h : Loaded t run commands snapshot)
    {indexed : List (ReconciliationCommand F)}
    (hscope : InScope run.context receivedAt snapshot.scope indexed) :
    Acceptable t run receivedAt := by
  intro row hmem hincluded
  have hcovered : row.command.commandId ∈ scopedIds t run := by
    have hrow : t.core.commands.get row.command.commandId = some row :=
      Table.get_eq_some.mpr ⟨hmem, rfl⟩
    unfold scopedIds
    cases hids : run.request.commandIds with
    | some ids => exact hincluded.listed ids hids
    | none => exact mem_loadRouteCommandIds.mpr ⟨row, hrow, hincluded.routed hids⟩
  obtain ⟨item, -, hitem⟩ := forall₂_mem_right h.each.flip hcovered
  have hloaded : scopedCommand t run row.command.commandId = .ok item := hitem
  obtain ⟨hrow, -, hstate, -⟩ := scopedCommand_ok.mp hloaded
  have hsame : item.command = row := by
    rw [Table.get_eq_some.mpr ⟨hmem, rfl⟩] at hrow
    exact (Option.some.inj hrow).symm
  have hin : (⟨item.command.command, item.state⟩ : ReconciliationCommand F) ∈ snapshot.scope :=
    h.mem.mpr ⟨_, hcovered, item.command, item.state, hloaded, rfl⟩
  obtain ⟨-, -, hterminal, hclient, htime⟩ := validateScopedCommand_ok.mp (hscope.valid _ hin)
  rw [hsame] at hterminal hclient
  refine ⟨namesRoute_iff.mpr ⟨hterminal, hclient⟩, fun s hs => ?_⟩
  rw [hstate] at hs
  cases hs
  exact htime

end

/-- **The loader and the evaluator.**  In every state of the tables a run over the whole account is
loaded, and what is loaded for a run is accepted against a valid result exactly when every command of
the run names its route in its own payload and no state of theirs is newer than the receipt. -/
theorem loaded_scope_accepted_iff (codec : WireCodec P) (plans : Tables P F) (parents : Parents P)
    (calls : List (ScopeCall P F)) (k : Nat) (requestId : RequestId) (run : StoredRun F)
    (hrun : (scopeAt codec plans parents calls k).core.runs.get requestId = some run)
    (result : ReconciliationResult F) (receivedAt : Int)
    (hresult : validateResult run.context result receivedAt = .ok ()) :
    (run.request.commandIds = none → ∃ snapshot, loadReconciliationEvaluationSnapshot
      (scopeAt codec plans parents calls k) requestId = .ok (some snapshot)) ∧
    ∀ snapshot, loadReconciliationEvaluationSnapshot
        (scopeAt codec plans parents calls k) requestId = .ok (some snapshot) →
      ((∃ indexed, validateCommandScope snapshot.run.context snapshot.scope receivedAt = .ok indexed) ↔
        Acceptable (scopeAt codec plans parents calls k) run receivedAt) := by
  have hconsistent := consistent_scopeAt codec plans parents calls k
  refine ⟨hconsistent.loads hrun, fun snapshot hload => ?_⟩
  obtain ⟨commands, hloaded⟩ := load_loaded hrun hload
  simp only [validateResult, bind_ok, exists_unit, reject_ok, not_or, Int.not_lt, gt_iff_lt] at hresult
  obtain ⟨hrequest, -, -, -, -, ⟨hsince, huntil⟩, -⟩ := hresult
  have hreceived : run.requestedAt ≤ receivedAt := hsince.trans huntil
  rw [hloaded.source]
  simp only [validateCommandScope_iff]
  constructor
  · rintro ⟨indexed, hscope⟩
    exact hloaded.acceptable hscope
  · intro hacceptable
    exact ⟨_, hloaded.accepted hconsistent hrequest hreceived hacceptable⟩

end

/-! ## a terminal that reconnects

The command was delivered on the session of the client; the run is the one its resume creates. -/

def resumeCommand (clientId : Option ClientId) : ExecutionCommand ℚ :=
  { sampleCommand with commandId := "c1", accountId := "a1", clientId := clientId }

def resumeParents (clientId : Option ClientId) : Parents String :=
  { goldParents with
    command := fun id =>
      if id = "c1" then some ⟨"a1", clientId, none, 1000, "command"⟩ else none }

def resumeRequest : ReconciliationRequest where
  requestId := "reconciliation:resume:hello"
  accountId := "a1"
  terminalId := none
  clientId := some "ea"
  reason := .connectionRestored
  commandIds := none
  sinceServerTime := none

def resumeRun : StoredRun ℚ := ⟨resumeRequest, 45, none⟩

def resumeResult : ReconciliationResult ℚ where
  requestId := "reconciliation:resume:hello"
  accountId := "a1"
  terminalId := none
  clientId := some "ea"
  observedAt := 46
  account := none
  positions := []
  orders := []
  symbolMetadata := []
  unresolvedCommandIds := []

/-- the command is committed, delivered and dispatched; `later` comes between the result, which
arrives at 50, and its handling -/
def resumeCalls (clientId : Option ClientId) (later : List (CommandEvidence ℚ)) :
    List (ScopeCall String ℚ) :=
  [.command ⟨⟨resumeCommand clientId, 10⟩, "risk"⟩] ++ (goldCalls.take 6).map .delivery ++
    [.evidence "c1" (.dispatched 40), .request resumeRequest 45] ++ later.map (.evidence "c1")

def resumeTables (clientId : Option ClientId) (later : List (CommandEvidence ℚ)) :
    ScopeTables String ℚ :=
  scopeAt goldWireCodec emptyPlans (resumeParents clientId) (resumeCalls clientId later) 10

/-- the result is valid, and is rejected for what was loaded -/
def RejectsScope (t : ScopeTables String ℚ) (error : ReconciliationError) : Prop :=
  t.core.runs.get resumeRequest.requestId = some resumeRun ∧
  validateResult resumeRun.context resumeResult 50 = .ok () ∧
  (loadReconciliationEvaluationSnapshot t resumeRequest.requestId).map
    (fun loaded => loaded.map fun snapshot =>
      validateCommandScope snapshot.run.context snapshot.scope 50) = .ok (some (.error error)) ∧
  evaluateStoredRun t resumeResult 50 = .error (.evaluation error)

instance (t : ScopeTables String ℚ) (error : ReconciliationError) : Decidable (RejectsScope t error) := by
  unfold RejectsScope
  infer_instance

/-- a command that names no route itself, and one whose delivery became doubtful at 60 -/
theorem valid_result_rejected :
    RejectsScope (resumeTables none []) (.invalidContext "commands[].client_id"
      "does not match the constrained request route") ∧
    RejectsScope (resumeTables (some "ea") [.deliveryUnconfirmed 60 "no receipt"])
      (.invalidContext "commands[].state.updated_at"
        "command c1 state is newer than the evaluation boundary") :=
  ⟨by decide +kernel, by decide +kernel⟩

/-- a second command of the client, which is still to be sent -/
def waitingCommand : ExecutionCommand ℚ :=
  { resumeCommand (some "ea") with commandId := "c2", legId := some "leg-2", idempotencyKey := "key-2" }

def pairCalls : List (ScopeCall String ℚ) :=
  .command ⟨⟨waitingCommand, 9⟩, "risk"⟩ :: resumeCalls (some "ea") []

theorem loaded_scope_accepted_sample :
    ∃ snapshot, loadReconciliationEvaluationSnapshot
        (scopeAt goldWireCodec emptyPlans (resumeParents (some "ea")) pairCalls 10)
        resumeRequest.requestId = .ok (some snapshot) ∧ snapshot.commands.length = 2 ∧
      ∃ indexed, validateCommandScope snapshot.run.context snapshot.scope 50 = .ok indexed := by
  have hiff := loaded_scope_accepted_iff goldWireCodec emptyPlans (resumeParents (some "ea"))
    pairCalls 10 resumeRequest.requestId resumeRun (by decide +kernel) resumeResult 50
    (by decide +kernel)
  have hlength : (loadReconciliationEvaluationSnapshot
      (scopeAt goldWireCodec emptyPlans (resumeParents (some "ea")) pairCalls 10)
      resumeRequest.requestId).toOption.join.map (fun found => found.commands.length) = some 2 := by
    decide +kernel
  have hcommands : (scopeAt goldWireCodec emptyPlans (resumeParents (some "ea")) pairCalls
      10).core.commands.rows.map (fun row => row.command.clientId) = [some "ea", some "ea"] := by
    decide +kernel
  have hstates : ∀ s ∈ (scopeAt goldWireCodec emptyPlans (resumeParents (some "ea")) pairCalls
      10).core.states.rows, s.updatedAt ≤ 50 := by
    decide +kernel
  obtain ⟨found, hloaded, htwo⟩ := Option.map_eq_some_iff.mp hlength
  have hfound := ok_of_toOption (Option.join_eq_some_iff.mp hloaded)
  refine ⟨found, hfound, htwo, (hiff.2 found hfound).mpr ?_⟩
  intro row hrow _
  have hclient : row.command.clientId ∈ [some "ea", some "ea"] := by
    rw [← hcommands]
    exact List.mem_map_of_mem hrow
  refine ⟨⟨fun _ hterminal => (by cases hterminal), fun _ hasked => ?_⟩, fun s hs => ?_⟩
  · cases hasked
    rcases List.mem_pair.mp hclient with h | h
    all_goals exact h
  · exact hstates s (Table.get_eq_some.mp hs).1

end Sinan.Reconciliation
