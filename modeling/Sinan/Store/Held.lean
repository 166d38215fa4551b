import Sinan.Store.Replay

/-!
# The rows of a stored workflow

A committed workflow is held in the rows of five tables, and neither a lifecycle update nor a further
commit takes any of its immutable part away.  A workflow that shares a plan id, a command id or an
idempotency key with a held one can be committed only if it is the same record.
-/

set_option linter.unusedSectionVars false

namespace Sinan.Store

open Lib Execution

section
variable {P F : Type} [DecidableEq P] [DecidableEq F] [F64 F]

/-! ## the shape of a new workflow -/

theorem validateExecutionCommandGraph_planId {command : ExecutionCommand F} {riskId : RiskId}
    {createdAt : Int} {plan : ExecutionPlan F} {planRiskId : RiskId} {planCreatedAt : Int}
    {risk : RiskResult F} {intent : TradeIntent F}
    (h : validateExecutionCommandGraph command riskId createdAt plan planRiskId planCreatedAt risk
      intent = .ok ()) : command.planId = some plan.definition.planId := by
  simp only [validateExecutionCommandGraph, bind_ok, exists_unit, need_ok] at h
  obtain ⟨planId, hplan, _, -, _, -, hidentity, -⟩ := h
  have hsame := (not_or.mp (reject_ok.mp hidentity)).1
  rw [hplan, not_not.mp hsame]

/-- two commands of one workflow share no identity -/
def NewExecutionCommand.Apart (x y : NewExecutionCommand F) : Prop :=
  x.command.commandId ≠ y.command.commandId ∧
    x.command.idempotencyKey ≠ y.command.idempotencyKey ∧ x.command.legId ≠ y.command.legId

theorem validateNewCommands_ok {w : NewExecutionWorkflow F}
    {seen commands : List (NewExecutionCommand F)} :
    validateNewCommands w seen commands = .ok () ↔
      (∀ c ∈ commands, validateNewExecutionCommandGraph w c = .ok () ∧
        ∀ other ∈ seen, other.Apart c) ∧ commands.Pairwise NewExecutionCommand.Apart := by
  induction commands generalizing seen with
  | nil => exact ⟨fun _ => ⟨fun c hc => absurd hc List.not_mem_nil, List.Pairwise.nil⟩, fun _ => rfl⟩
  | cons command rest ih =>
    simp only [validateNewCommands, bind_ok, exists_unit, reject_ok, ih, List.forall_mem_cons,
      List.forall_mem_append, List.pairwise_cons, not_exists, not_and,
      NewExecutionCommand.Apart]
    constructor
    · rintro ⟨hgraph, hid, hkey, hleg, hrest, hpairs⟩
      exact ⟨⟨⟨hgraph, fun o ho => ⟨hid o ho, hkey o ho, hleg o ho⟩⟩,
        fun c hc => ⟨(hrest c hc).1, (hrest c hc).2.1⟩⟩, fun c hc => (hrest c hc).2.2.1, hpairs⟩
    · rintro ⟨⟨⟨hgraph, happ⟩, hrest⟩, hfirst, hpairs⟩
      exact ⟨hgraph, fun o ho => (happ o ho).1, fun o ho => (happ o ho).2.1,
        fun o ho => (happ o ho).2.2, fun c hc => ⟨(hrest c hc).1, (hrest c hc).2, hfirst c hc,
          fun x hx => absurd hx List.not_mem_nil⟩, hpairs⟩

/-- what a workflow that passes its checks looks like -/
structure WellShaped (w : NewExecutionWorkflow F) : Prop where
  intentId : w.plan.intentId = w.intent.intent.intentId
  riskId : w.plan.riskId = w.riskResult.riskId
  planIds : ∀ c ∈ w.commands, c.command.planId = some w.plan.planId
  commandIds : (w.commands.map fun c => c.command.commandId).Nodup
  count : w.commands.length = w.plan.plan.legs.length

theorem validateNewExecutionWorkflow_shape {w : NewExecutionWorkflow F}
    (h : validateNewExecutionWorkflow w = .ok ()) : WellShaped w := by
  simp only [validateNewExecutionWorkflow, invalidRecordOf_ok, validateWorkflowGraph,
    validateWorkflowRows, bind_ok, exists_unit, reject_ok, not_or, not_not, ne_eq] at h
  obtain ⟨-, -, ⟨hintent, hrisk, -⟩, hcommands, hcount, -⟩ := h
  obtain ⟨hgraphs, hapart⟩ := validateNewCommands_ok.mp hcommands
  exact ⟨hintent, hrisk, fun c hc => validateExecutionCommandGraph_planId (hgraphs c hc).1,
    List.pairwise_map.mpr (hapart.imp And.left), hcount.1⟩

/-! ## what a read workflow has passed -/

def planCommands (commands : CommandTable F) (planId : PlanId) : List (CommandRow F) :=
  commands.rows.filter fun row => row.command.planId == some planId

theorem collectCommands_ok {plan : StoredExecutionPlan P F} {risk : RiskResult F}
    {intent : StoredTradeIntent F} {seen rows out : List (CommandRow F)}
    (h : collectCommands plan risk intent seen rows = .ok out) : out = seen ++ rows := by
  induction rows generalizing seen with
  | nil =>
    cases h
    exact (List.append_nil _).symm
  | cons row rest ih =>
    unfold collectCommands at h
    cases hgraph : validateExecutionCommandGraph row.command row.riskId row.createdAt plan.plan
        plan.riskId plan.createdAt risk intent.intent with
    | error e =>
      rw [hgraph] at h
      cases h
    | ok u =>
      simp only [hgraph, bind_ok, exists_unit] at h
      obtain ⟨-, -, hrest⟩ := h
      rw [ih hrest, List.append_assoc]
      rfl

variable {planId : PlanId}

theorem commandState_ok {states : StateTable} {row : CommandRow F} {s : ExecutionCommandState} :
    commandState states planId row = .ok s ↔ states.get row.command.commandId = some s ∧
      validatePersistedCommandState s row.toStoredExecutionCommand = .ok () := by
  unfold commandState
  rw [bind_ok]
  constructor
  · rintro ⟨state, hstate, h⟩
    rw [need_ok] at hstate
    cases hvalid : validatePersistedCommandState state row.toStoredExecutionCommand with
    | error e =>
      rw [hvalid] at h
      cases h
    | ok u =>
      rw [hvalid] at h
      cases h
      exact ⟨hstate, hvalid⟩
  · rintro ⟨hstate, hvalid⟩
    refine ⟨s, need_ok.mpr hstate, ?_⟩
    rw [hvalid]

/-- the command of a leg and its state, as they are read -/
structure LegRead (states : StateTable) (rows : List (CommandRow F)) (leg : ExecutionLeg F)
    (p : CommandRow F × ExecutionCommandState) : Prop where
  row : (rows.find? fun row => row.command.legId == some leg.definition.legId) = some p.1
  state : states.get p.1.command.commandId = some p.2
  valid : validatePersistedCommandState p.2 p.1.toStoredExecutionCommand = .ok ()

theorem legCommand_ok {states : StateTable} {rows : List (CommandRow F)} {leg : ExecutionLeg F}
    {p : CommandRow F × ExecutionCommandState} :
    legCommand states planId rows leg = .ok p ↔ LegRead states rows leg p := by
  simp only [legCommand, bind_ok, need_ok, pure_ok, commandState_ok]
  constructor
  · rintro ⟨row, hrow, s, ⟨hstate, hvalid⟩, rfl⟩
    exact ⟨hrow, hstate, hvalid⟩
  · intro h
    exact ⟨p.1, h.row, p.2, ⟨h.state, h.valid⟩, rfl⟩

structure WorkflowRead (codec : PayloadCodec P F) (tables : CommandTables P F) (planId : PlanId)
    (stored : StoredExecutionWorkflow P F) (pairs : List (CommandRow F × ExecutionCommandState)) :
    Prop where
  plan : fetchExecutionPlanById codec tables.plans planId = .ok (some stored.plan)
  risk : tables.plans.risk stored.plan.riskId = .ok (some stored.riskResult)
  intent : tables.plans.intent stored.plan.intentId = .ok (some stored.intent)
  graph : collectCommands stored.plan stored.riskResult stored.intent []
    (planCommands tables.commands planId) = .ok (planCommands tables.commands planId)
  count : (planCommands tables.commands planId).length = stored.plan.plan.legs.length
  legs : List.Forall₂ (LegRead tables.states (planCommands tables.commands planId))
    stored.plan.plan.legs pairs
  commands : stored.commands = pairs.map Prod.fst
  states : stored.commandStates = pairs.map Prod.snd

theorem fetchExecutionWorkflowByPlanId_ok {codec : PayloadCodec P F} {tables : CommandTables P F}
    {stored : StoredExecutionWorkflow P F} :
    fetchExecutionWorkflowByPlanId codec tables planId = .ok (some stored) ↔
      ∃ pairs, WorkflowRead codec tables planId stored pairs := by
  unfold fetchExecutionWorkflowByPlanId
  rw [bind_ok]
  constructor
  · rintro ⟨found, hplan, h⟩
    cases found with
    | none => cases h
    | some plan =>
      simp only [bind_ok, exists_unit, need_ok, reject_ok, pure_ok, collect_ok, legCommand_ok,
        not_not, ne_eq, Option.some.injEq] at h
      obtain ⟨_, hrisk, risk, rfl, _, hintent, intent, rfl, rows, hrows, hcount, pairs, hlegs,
        rfl⟩ := h
      obtain rfl : rows = planCommands tables.commands planId := collectCommands_ok hrows
      exact ⟨pairs, hplan, hrisk, hintent, hrows, hcount, hlegs, rfl, rfl⟩
  · rintro ⟨pairs, h⟩
    refine ⟨some stored.plan, h.plan, ?_⟩
    simp only [bind_ok, exists_unit, need_ok, reject_ok, pure_ok, collect_ok, legCommand_ok,
      not_not, ne_eq, Option.some.injEq]
    refine ⟨_, h.risk, _, rfl, _, h.intent, _, rfl, _, h.graph, h.count, pairs, h.legs, ?_⟩
    rw [← h.commands, ← h.states]

/-- what `validate_execution_workflow_replay` has compared -/
structure Replays (codec : JournalCodec P F) (intent : IntentRow F)
    (stored : StoredExecutionWorkflow P F) (w : NewExecutionWorkflow F) : Prop where
  intent : intent = w.intent.row
  risk : stored.riskResult = w.riskResult
  payload : codec.journal w.plan.journal = .ok stored.plan.payload
  riskId : stored.plan.riskId = w.plan.riskId
  intentId : stored.plan.intentId = w.plan.intentId
  createdAt : stored.plan.createdAt = w.plan.recordedAt
  commandCount : stored.commands.length = w.commands.length
  commands : ∀ c ∈ w.commands, replaysCommand stored.commands c = true
  stateCount : stored.commandStates.length = w.commandStates.length
  states : ∀ s ∈ w.commandStates, replaysState stored.commandStates s = true

theorem validateExecutionWorkflowReplay_ok {codec : JournalCodec P F} {intent : IntentRow F}
    {stored : StoredExecutionWorkflow P F} {w : NewExecutionWorkflow F} :
    validateExecutionWorkflowReplay codec intent stored w = .ok () ↔
      Replays codec intent stored w := by
  simp only [validateExecutionWorkflowReplay, bind_ok, exists_unit, reject_ok, each_ok, not_or,
    not_not, ne_eq, Bool.not_eq_false]
  constructor
  · rintro ⟨payload, hpayload, ⟨hintent, hstatus, hcreated, hupdated, hrisk, rfl, hriskId,
      hintentId, hplanCreated⟩, hcount, hcommands, hstateCount, hstates⟩
    refine ⟨?_, hrisk, hpayload, hriskId, hintentId, hplanCreated, hcount, hcommands, hstateCount,
      hstates⟩
    obtain ⟨⟨_, _⟩, _, _⟩ := intent
    cases hintent
    cases hstatus
    cases hcreated
    cases hupdated
    rfl
  · intro h
    refine ⟨_, h.payload, ⟨?_, ?_, ?_, ?_, h.risk, rfl, h.riskId, h.intentId, h.createdAt⟩,
      h.commandCount, h.commands, h.stateCount, h.states⟩
    all_goals
      rw [h.intent]
      rfl

theorem readBackWorkflow_ok {codec : JournalCodec P F} {w : NewExecutionWorkflow F}
    {t : WorkflowTables P F} {stored : StoredExecutionWorkflow P F} :
    readBackWorkflow codec w t = .ok stored ↔
      ∃ pairs intent, WorkflowRead codec.toPayloadCodec t.readback w.plan.planId stored pairs ∧
        t.intents.get stored.plan.intentId = some intent ∧ Replays codec intent stored w := by
  simp only [readBackWorkflow, bind_ok, exists_unit, need_ok, pure_ok,
    validateExecutionWorkflowReplay_ok]
  constructor
  · rintro ⟨_, hread, _, rfl, intent, hintent, hreplays, rfl⟩
    obtain ⟨pairs, hread⟩ := fetchExecutionWorkflowByPlanId_ok.mp hread
    exact ⟨pairs, intent, hread, hintent, hreplays⟩
  · rintro ⟨pairs, intent, hread, hintent, hreplays⟩
    exact ⟨_, fetchExecutionWorkflowByPlanId_ok.mpr ⟨pairs, hread⟩, stored, rfl, intent, hintent,
      hreplays, rfl⟩

/-! ## the rows of a workflow -/

/-- the immutable part of a workflow is in the rows -/
structure Held (codec : JournalCodec P F) (w : NewExecutionWorkflow F) (t : WorkflowTables P F) :
    Prop where
  intent : w.intent.row ∈ t.intents.rows
  risk : w.riskResult ∈ t.risks.rows
  plan : ∃ row ∈ t.plans.rows, row.planId = w.plan.planId ∧
    codec.journal w.plan.journal = .ok row.payload ∧ row.createdAt = w.plan.recordedAt
  commands : ∀ c ∈ w.commands, c.row ∈ t.commands.rows

/-- a step that takes nothing immutable away -/
structure RowsKept (t next : WorkflowTables P F) : Prop where
  intents : t.intents.rows ⊆ next.intents.rows
  risks : t.risks.rows ⊆ next.risks.rows
  plans : PlanRowsKept t.plans.rows next.plans.rows
  commands : t.commands.rows ⊆ next.commands.rows

section
variable {codec : JournalCodec P F} {w w' : NewExecutionWorkflow F} {t t' next : WorkflowTables P F}
  {stored : StoredExecutionWorkflow P F}

theorem RowsKept.refl (t : WorkflowTables P F) : RowsKept t t :=
  ⟨List.Subset.refl _, List.Subset.refl _, PlanRowsKept.refl _, List.Subset.refl _⟩

theorem RowsKept.trans {a b c : WorkflowTables P F} (hab : RowsKept a b) (hbc : RowsKept b c) :
    RowsKept a c :=
  ⟨List.Subset.trans hab.intents hbc.intents, List.Subset.trans hab.risks hbc.risks,
    hab.plans.trans hbc.plans, List.Subset.trans hab.commands hbc.commands⟩

theorem PlanRow.eq_of_fixed {row row' : PlanRow P} (h : row'.fixed = row.fixed) :
    row'.planId = row.planId ∧ row'.payload = row.payload ∧ row'.createdAt = row.createdAt := by
  have hplan : row'.fixed.planId = row.fixed.planId := congrArg PlanRow.planId h
  have hpayload : row'.fixed.payload = row.fixed.payload := congrArg PlanRow.payload h
  have hcreated : row'.fixed.createdAt = row.fixed.createdAt := congrArg PlanRow.createdAt h
  exact ⟨hplan, hpayload, hcreated⟩

theorem Held.kept (h : Held codec w t) (hkept : RowsKept t next) : Held codec w next := by
  obtain ⟨row, hrow, hplan, hpayload, hcreated⟩ := h.plan
  obtain ⟨row', hrow', hfixed⟩ := hkept.plans row hrow
  obtain ⟨hplan', hpayload', hcreated'⟩ := PlanRow.eq_of_fixed hfixed
  refine ⟨hkept.intents h.intent, hkept.risks h.risk, ⟨row', hrow', ?_, ?_, ?_⟩,
    fun c hc => hkept.commands (h.commands c hc)⟩
  · exact hplan'.trans hplan
  · rw [hpayload']
    exact hpayload
  · exact hcreated'.trans hcreated

theorem Extends.kept (h : Extends t t') : RowsKept t t' where
  intents := h.intents.subset
  risks := h.risks.subset
  plans := fun row hrow => ⟨row, h.plans.subset hrow, rfl⟩
  commands := h.commands.subset

theorem Progressed.kept (h : Progressed codec t next) : RowsKept t next where
  intents := by rw [h.intents]; exact List.Subset.refl _
  risks := by rw [h.risks]; exact List.Subset.refl _
  plans := h.planRows
  commands := by rw [h.commands]; exact List.Subset.refl _

theorem fetchRiskResultById_row {riskId : RiskId} {risk : RiskResult F}
    (h : t.fetchRiskResultById riskId = .ok (some risk)) : t.risks.get riskId = some risk := by
  unfold WorkflowTables.fetchRiskResultById at h
  cases hrow : t.risks.get riskId with
  | none =>
    rw [hrow] at h
    cases h
  | some row =>
    rw [hrow] at h
    cases hread : riskResultFromRow t row with
    | error e =>
      simp only [hread] at h
      cases h
    | ok read =>
      simp only [hread] at h
      cases h
      simp only [riskResultFromRow, bind_ok, exists_unit, pure_ok] at hread
      obtain ⟨-, _, -, -, -, -, rfl⟩ := hread
      rfl

theorem riskResultFromRow_inserted {result : RiskResult F} (hvalid : result.validate = .ok ())
    (hidentity : validateRiskResultIntentIdentity t result = .ok ()) :
    riskResultFromRow t result = .ok result := by
  simp only [validateRiskResultIntentIdentity, bind_ok, exists_unit, need_ok] at hidentity
  obtain ⟨_, hfetch, parent, rfl, hsame, hcontract⟩ := hidentity
  obtain ⟨row, hrow, rfl⟩ := Option.map_eq_some_iff.mp (Except.ok.inj hfetch)
  have hsame := reject_ok.mp hsame
  simp only [ne_eq, not_or, not_not] at hsame
  obtain ⟨haccount, hdecision⟩ := hsame
  simp only [riskResultFromRow, bind_ok, exists_unit, need_ok, pure_ok, mapError_ok]
  exact ⟨hvalid, row, hrow, reject_ok.mpr (not_not.mpr haccount),
    reject_ok.mpr (not_not.mpr hdecision), invalidRecordOf_ok.mp hcontract, trivial⟩

theorem replaysCommand_row {rows : List (CommandRow F)} {c : NewExecutionCommand F}
    (h : replaysCommand rows c = true) : c.row ∈ rows := by
  obtain ⟨row, hrow, h⟩ := (Option.any_eq_true _ _).mp h
  obtain ⟨hmem, -⟩ := find_key hrow
  simp only [Bool.and_eq_true, beq_iff_eq, decide_eq_true_eq] at h
  obtain ⟨⟨hrisk, hcommand⟩, hcreated⟩ := h
  obtain ⟨⟨_, _⟩, _⟩ := row
  cases hrisk
  cases hcommand
  cases hcreated
  exact hmem

theorem WorkflowRead.row {codec : PayloadCodec P F} {tables : CommandTables P F} {planId : PlanId}
    {pairs : List (CommandRow F × ExecutionCommandState)}
    (h : WorkflowRead codec tables planId stored pairs) :
    ∀ row ∈ stored.commands, row ∈ planCommands tables.commands planId := by
  intro row hrow
  rw [h.commands] at hrow
  obtain ⟨p, hp, rfl⟩ := List.mem_map.mp hrow
  obtain ⟨leg, -, hread⟩ := forall₂_mem_right h.legs hp
  exact List.mem_of_find?_eq_some hread.row

theorem held_of_read (h : readBackWorkflow codec w t = .ok stored) : Held codec w t := by
  obtain ⟨pairs, intent, hread, hintent, hreplays⟩ := readBackWorkflow_ok.mp h
  obtain ⟨row, hrow, hplan⟩ := fetchExecutionPlanById_ok.mp hread.plan
  obtain ⟨journal, _, _, -, hstored⟩ := executionPlanFromRow_ok.mp hplan
  have hpayload : stored.plan.payload = row.payload := by rw [hstored]
  have hcreated : stored.plan.createdAt = row.createdAt := by rw [hstored]
  have hrisk := Table.get_eq_some.mp (fetchRiskResultById_row hread.risk)
  refine ⟨?_, ?_, ⟨row, (find_key hrow).1, (find_key hrow).2, ?_, ?_⟩, fun c hc => ?_⟩
  · rw [← hreplays.intent]
    exact (Table.get_eq_some.mp hintent).1
  · rw [← hreplays.risk]
    exact hrisk.1
  · rw [← hpayload]
    exact hreplays.payload
  · rw [← hcreated]
    exact hreplays.createdAt
  · have hmem := hread.row _ (replaysCommand_row (hreplays.commands c hc))
    exact (List.mem_filter.mp hmem).1

theorem count_of_read (h : readBackWorkflow codec w t = .ok stored) :
    (planCommands t.commands w.plan.planId).length = w.commands.length := by
  obtain ⟨pairs, _, hread, -, hreplays⟩ := readBackWorkflow_ok.mp h
  rw [← hreplays.commandCount, hread.commands, List.length_map, ← hread.legs.length_eq]
  exact hread.count

/-! ## two workflows of one plan -/

theorem row_inj :
    Function.Injective (NewExecutionCommand.row : NewExecutionCommand F → CommandRow F) := by
  rintro ⟨command, riskId, createdAt⟩ ⟨command', riskId', createdAt'⟩ h
  cases h
  rfl

theorem Held.rows (h : Held codec w t) (hw : WellShaped w)
    (hcount : (planCommands t.commands w.plan.planId).length = w.commands.length)
    (row : CommandRow F) :
    row ∈ planCommands t.commands w.plan.planId ↔ ∃ c ∈ w.commands, c.row = row := by
  have hsub : w.commands.map NewExecutionCommand.row ⊆ planCommands t.commands w.plan.planId := by
    intro r hr
    obtain ⟨c, hc, rfl⟩ := List.mem_map.mp hr
    exact List.mem_filter.mpr ⟨h.commands c hc, beq_iff_eq.mpr (hw.planIds c hc)⟩
  have hnodup : (w.commands.map NewExecutionCommand.row).Nodup :=
    (List.Nodup.of_map _ hw.commandIds).map row_inj
  have hperm := (List.subperm_of_subset hnodup hsub).perm_of_length_le
    (by rw [List.length_map, hcount])
  rw [← hperm.mem_iff, List.mem_map]

/-- the two workflows agree in all that does not change -/
structure SameRecord (w w' : NewExecutionWorkflow F) : Prop where
  intent : w'.intent = w.intent
  risk : w'.riskResult = w.riskResult
  definition : w'.plan.plan.definition = w.plan.plan.definition
  legs : w'.plan.plan.legs.map ExecutionLeg.definition =
    w.plan.plan.legs.map ExecutionLeg.definition
  riskId : w'.plan.riskId = w.plan.riskId
  intentId : w'.plan.intentId = w.plan.intentId
  recordedAt : w'.plan.recordedAt = w.plan.recordedAt
  commands : ∀ c, c ∈ w'.commands ↔ c ∈ w.commands

/-- equal canonical payloads come from equal journals -/
def JournalCodec.Faithful (codec : JournalCodec P F) : Prop :=
  ∀ j j' payload, codec.journal j = .ok payload → codec.journal j' = .ok payload → j = j'

theorem NewTradeIntent.eq_of_row {i i' : NewTradeIntent F} (h : i'.row = i.row) : i' = i := by
  obtain ⟨intent, status, recordedAt⟩ := i
  obtain ⟨intent', status', recordedAt'⟩ := i'
  cases h
  rfl

theorem sameRecord_of_held (hcodec : codec.Faithful) (hw : WellShaped w) (hw' : WellShaped w')
    (h : Held codec w t) (h' : Held codec w' t) (hplan : w'.plan.planId = w.plan.planId)
    (hcount : (planCommands t.commands w'.plan.planId).length = w'.commands.length) :
    SameRecord w w' := by
  obtain ⟨row, hrow, hrowPlan, hpayload, hcreated⟩ := h.plan
  obtain ⟨row', hrow', hrowPlan', hpayload', hcreated'⟩ := h'.plan
  -- both plans are the one row of their id, so both journals have one payload
  have hsame : row' = row := List.inj_on_of_nodup_map t.plans.keyed hrow' hrow
    (hrowPlan'.trans (hplan.trans hrowPlan.symm))
  subst hsame
  have hjournal : w'.plan.journal = w.plan.journal := hcodec _ _ _ hpayload' hpayload
  have hriskId : w'.plan.riskId = w.plan.riskId := congrArg ExecutionPlanJournal.riskId hjournal
  have hintentId : w'.plan.intentId = w.plan.intentId :=
    congrArg ExecutionPlanJournal.intentId hjournal
  have hlegs : w'.plan.plan.legs.map ExecutionLeg.definition =
      w.plan.plan.legs.map ExecutionLeg.definition := congrArg ExecutionPlanJournal.legs hjournal
  have hlength : w'.commands.length = w.commands.length := by
    rw [hw'.count, hw.count, ← List.length_map ExecutionLeg.definition, hlegs, List.length_map]
  have hrisk : w'.riskResult = w.riskResult :=
    List.inj_on_of_nodup_map t.risks.keyed h'.risk h.risk
      (hw'.riskId.symm.trans (hriskId.trans hw.riskId))
  have hintent : w'.intent.row = w.intent.row :=
    List.inj_on_of_nodup_map t.intents.keyed h'.intent h.intent
      (hw'.intentId.symm.trans (hintentId.trans hw.intentId))
  have hrows' := h'.rows hw' hcount
  rw [hplan] at hcount hrows'
  have hrows := h.rows hw (hcount.trans hlength)
  refine ⟨NewTradeIntent.eq_of_row hintent, hrisk, congrArg ExecutionPlanJournal.definition hjournal,
    hlegs, hriskId, hintentId, hcreated'.symm.trans hcreated, fun c => ?_⟩
  have hiff := (hrows' c.row).symm.trans (hrows c.row)
  constructor
  · intro hc
    obtain ⟨c', hc', heq⟩ := hiff.mp ⟨c, hc, rfl⟩
    exact row_inj heq ▸ hc'
  · intro hc
    obtain ⟨c', hc', heq⟩ := hiff.mpr ⟨c, hc, rfl⟩
    exact row_inj heq ▸ hc'

/-- the two workflows meet in a plan id, a command id or an idempotency key -/
def Shares (w w' : NewExecutionWorkflow F) : Prop :=
  w'.plan.planId = w.plan.planId ∨ ∃ c ∈ w.commands, ∃ c' ∈ w'.commands,
    c'.command.commandId = c.command.commandId ∨
      c'.command.idempotencyKey = c.command.idempotencyKey

theorem planId_of_shares (hw : WellShaped w) (hw' : WellShaped w') (h : Held codec w t)
    (h' : Held codec w' t) (hshares : Shares w w') : w'.plan.planId = w.plan.planId := by
  rcases hshares with hplan | ⟨c, hc, c', hc', hmeet⟩
  · exact hplan
  · have hrow : c'.row = c.row := by
      rcases hmeet with hid | hkey
      · exact List.inj_on_of_nodup_map t.commands.keyed (h'.commands c' hc') (h.commands c hc) hid
      · refine Table.indexed_inj t.commands.indexed (h'.commands c' hc') (h.commands c hc) ?_ rfl
        exact congrArg some hkey
    have hplan := hw'.planIds c' hc'
    rw [row_inj hrow, hw.planIds c hc] at hplan
    exact (Option.some.inj hplan).symm

end

end

end Sinan.Store
