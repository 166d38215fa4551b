import Sinan.Execution.Lifecycle
import Sinan.Store.Agreement
import Sinan.Store.Held

/-!
# A workflow committed a second time

Between the two commits lie any accepted updates of its plan, its legs and its commands.  The second
commit writes nothing, and returns `Duplicate` exactly if the reader takes the states of the commands
as they are then: the update of a command state does not look at the timestamps the reader checks.
A workflow that clashes with a held one is refused and leaves no row behind.
-/

set_option linter.unusedSectionVars false

namespace Sinan.Store

open Lib Execution Risk

section
variable {P F : Type} [DecidableEq P] [DecidableEq F] [F64 F]

/-- no timestamp of the state lies outside its lifecycle -/
def InWindow (s : ExecutionCommandState) : Prop :=
  ∀ at' ∈ lifecycleTimestamps s, s.createdAt ≤ at' ∧ at' ≤ s.updatedAt

instance (s : ExecutionCommandState) : Decidable (InWindow s) := by
  unfold InWindow
  infer_instance

theorem validatePersistedCommandState_iff {s : ExecutionCommandState}
    {stored : StoredExecutionCommand F} :
    validatePersistedCommandState s stored = .ok () ↔
      stateIdentity s = (stored.command.commandId, stored.command.accountId, stored.command.planId,
        stored.command.legId, stored.createdAt) ∧
      (0 ≤ s.createdAt ∧ s.createdAt ≤ s.updatedAt) ∧ InWindow s := by
  have hwindow : InWindow s ↔ ∀ p ∈ persistedTimestamps s,
      ¬ (p.2.any fun t => t < s.createdAt || t > s.updatedAt) = true := by
    have hone : ∀ o : Option Int, (¬ (o.any fun t => t < s.createdAt || t > s.updatedAt) = true) ↔
        ∀ t, o = some t → s.createdAt ≤ t ∧ t ≤ s.updatedAt := by
      intro o
      cases o with
      | none => exact ⟨fun _ t ht => (by cases ht), fun _ h => (by cases h)⟩
      | some t =>
        simp only [Option.any_some, Bool.or_eq_true, decide_eq_true_eq, not_or, Int.not_lt,
          gt_iff_lt, Option.some.injEq, forall_eq']
    simp only [InWindow, mem_lifecycleTimestamps, persistedTimestamps, List.mem_cons,
      List.not_mem_nil, or_false, forall_eq, hone, or_imp, forall_and]
  simp only [validatePersistedCommandState, bind_ok, exists_unit, reject_ok, each_ok, not_or,
    not_not, ne_eq, Int.not_lt, hwindow, stateIdentity, Prod.mk.injEq]

/-! ## a held row is not written again -/

section
variable {codec : JournalCodec P F} {w w' : NewExecutionWorkflow F} {t₀ t₁ t t' : WorkflowTables P F}
  {stored : StoredExecutionWorkflow P F}

theorem insertTradeIntent_idle {new : NewTradeIntent F}
    (hcheck : checkDecisionTimestamp new.intent = .ok ()) (h : new.row ∈ t.intents.rows) :
    insertTradeIntent new t = (.ok false, t) := by
  have htaken : t.intents.insert new.row = none :=
    Table.insert_taken (Table.get_eq_some.mpr ⟨h, rfl⟩)
  have hconflicts : intentConflicts t new.intent = [new.row] :=
    Table.conflicts_self h rfl fun row => by
      simp only [NewTradeIntent.row, Bool.or_eq_true, beq_iff_eq, Option.some.injEq]
  simp only [insertTradeIntent, Script.bind_run, Script.query_run]
  refine ⟨(), t, ⟨hcheck, rfl⟩, Script.write_run.mpr ?_⟩
  simp only [htaken, hconflicts]
  exact if_pos rfl

theorem insertRiskResult_idle {result : RiskResult F} (hvalid : result.validate = .ok ())
    (hstored : t.fetchRiskResultById result.riskId = .ok (some result)) :
    insertRiskResult result t = (.ok false, t) := by
  simp only [insertRiskResult, Script.bind_run, Script.query_run]
  refine ⟨(), t, ⟨invalidRecordOf_ok.mpr hvalid, rfl⟩, some result, t, ⟨hstored, rfl⟩, ?_⟩
  simp only [Script.bind_run, Script.query_run, Script.pure_run]
  exact ⟨(), t, ⟨reject_ok.mpr fun hne => hne rfl, rfl⟩, trivial, rfl⟩

theorem insertExecutionPlan_idle {new : NewExecutionPlan F} {payload : P}
    {existing : StoredExecutionPlan P F} (hparents : validateExecutionPlanParents t new = .ok ())
    (hpayload : codec.journal new.journal = .ok payload)
    (hstored : fetchExecutionPlanById codec.toPayloadCodec t.lifecycle new.planId =
      .ok (some existing))
    (hsame : sameExecutionPlan existing new payload = true) :
    insertExecutionPlan codec new t = (.ok false, t) := by
  simp only [insertExecutionPlan, Script.bind_run, Script.query_run]
  refine ⟨(), t, ⟨hparents, rfl⟩, payload, t, ⟨hpayload, rfl⟩, some existing, t, ⟨hstored, rfl⟩, ?_⟩
  simp only [Script.bind_run, Script.query_run, Script.pure_run]
  refine ⟨(), t, ⟨reject_ok.mpr ?_, rfl⟩, trivial, rfl⟩
  rw [hsame]
  exact fun hfalse => by cases hfalse

theorem insertExecutionCommand_idle {new : NewExecutionCommand F} (h : new.row ∈ t.commands.rows) :
    insertExecutionCommand new t = (.ok false, t) := by
  have htaken : t.commands.insert new.row = none :=
    Table.insert_taken (Table.get_eq_some.mpr ⟨h, rfl⟩)
  have hconflicts : commandConflicts t new.command = [new.row] :=
    Table.conflicts_self h rfl fun row => by
      simp only [NewExecutionCommand.row, Bool.or_eq_true, beq_iff_eq, Option.some.injEq]
  refine Script.write_run.mpr ?_
  simp only [htaken, hconflicts]
  exact if_pos ⟨rfl, rfl⟩

theorem insertExecutionCommandState_idle {state existing : ExecutionCommandState}
    (hidentity : validateCommandStateIdentity t state = .ok ())
    (hstored : t.states.get state.commandId = some existing)
    (haccepts : acceptsState existing state = true) :
    insertExecutionCommandState state t = (.ok false, t) := by
  have htaken : t.states.insert state = none := Table.insert_taken hstored
  simp only [insertExecutionCommandState, Script.bind_run, Script.query_run]
  refine ⟨(), t, ⟨hidentity, rfl⟩, Script.write_run.mpr ?_⟩
  simp only [htaken, bind_ok, exists_unit, pure_ok]
  refine ⟨existing, need_ok.mpr hstored, reject_ok.mpr ?_, trivial⟩
  rw [haccepts]
  exact fun hfalse => by cases hfalse

theorem insertExecutionCommandState_ok {state : ExecutionCommandState} {any : Bool}
    (h : insertExecutionCommandState state t = (.ok any, t')) :
    validateCommandStateIdentity t state = .ok () ∧
      ∃ existing, t'.states.get state.commandId = some existing ∧
        acceptsState existing state = true := by
  simp only [insertExecutionCommandState, Script.bind_run, Script.query_run] at h
  obtain ⟨_, _, ⟨hidentity, hsame⟩, hwrite⟩ := h
  refine ⟨hidentity, ?_⟩
  rw [hsame, Script.write_run] at hwrite
  cases hinsert : t.states.insert state with
  | some states =>
    simp only [hinsert] at hwrite
    cases hwrite
    refine ⟨state, ?_, acceptsState_refl state⟩
    show states.get state.commandId = some state
    rw [Table.get_insert hinsert, if_pos rfl]
  | none =>
    simp only [hinsert, bind_ok, exists_unit, need_ok, pure_ok, Prod.mk.injEq] at hwrite
    obtain ⟨existing, hstored, haccepts, -, rfl⟩ := hwrite
    exact ⟨existing, hstored, Bool.eq_true_of_not_eq_false (reject_ok.mp haccepts)⟩

/-! ## what the first commit has checked still holds -/

theorem Committed.extends_commands (c : Committed codec w t₀ t' stored) :
    Extends c.afterCommands t' :=
  Script.Keeps.anyOf Extends.refl Extends.trans insertExecutionCommandState_extends _ _ _ _
    c.ofStates

theorem Committed.extends_risk (c : Committed codec w t₀ t' stored) : Extends c.afterRisk t' :=
  (insertExecutionPlan_extends codec _ _ _ _ c.ofPlan).trans
    ((Script.Keeps.anyOf Extends.refl Extends.trans insertExecutionCommand_extends _ _ _ _
      c.ofCommands).trans c.extends_commands)

theorem Committed.extends (c : Committed codec w t₀ t' stored) : Extends t₀ t' :=
  (insertTradeIntent_extends _ _ _ _ c.ofIntent).trans
    ((insertRiskResult_extends _ _ _ _ c.ofRisk).trans c.extends_risk)

/-- a step that keeps intents, risk results and commands as they are found -/
structure ParentsKept (t next : WorkflowTables P F) : Prop where
  intent : ∀ id row, t.intents.get id = some row → next.intents.get id = some row
  risk : ∀ id row, t.risks.get id = some row → next.risks.get id = some row
  command : ∀ id row, t.commands.get id = some row → next.commands.get id = some row

theorem RowsKept.parents (h : RowsKept t t') : ParentsKept t t' where
  intent := fun _ _ hrow => Table.get_of_subset h.intents hrow
  risk := fun _ _ hrow => Table.get_of_subset h.risks hrow
  command := fun _ _ hrow => Table.get_of_subset h.commands hrow

theorem ParentsKept.fetch_intent (h : ParentsKept t t') {id : IntentId} {intent : StoredTradeIntent F}
    (hfetch : t.fetchTradeIntentById id = .ok (some intent)) :
    t'.fetchTradeIntentById id = .ok (some intent) := by
  obtain ⟨row, hrow, hintent⟩ := Option.map_eq_some_iff.mp (Except.ok.inj hfetch)
  unfold WorkflowTables.fetchTradeIntentById
  rw [h.intent id row hrow, ← hintent]
  rfl

theorem ParentsKept.risk_row (h : ParentsKept t t') {row risk : RiskResult F}
    (hread : riskResultFromRow t row = .ok risk) : riskResultFromRow t' row = .ok risk := by
  simp only [riskResultFromRow, bind_ok, exists_unit, need_ok, pure_ok] at hread ⊢
  obtain ⟨hvalid, parent, hparent, hrest⟩ := hread
  exact ⟨hvalid, parent, h.intent _ _ hparent, hrest⟩

theorem ParentsKept.fetch_risk (h : ParentsKept t t') {id : RiskId} {risk : RiskResult F}
    (hfetch : t.fetchRiskResultById id = .ok (some risk)) :
    t'.fetchRiskResultById id = .ok (some risk) := by
  have hrow := fetchRiskResultById_row hfetch
  unfold WorkflowTables.fetchRiskResultById at hfetch ⊢
  rw [h.risk id risk hrow]
  rw [hrow] at hfetch
  cases hread : riskResultFromRow t risk with
  | error e =>
    simp only [hread] at hfetch
    cases hfetch
  | ok read =>
    simp only [hread] at hfetch
    simp only [h.risk_row hread]
    exact hfetch

theorem ParentsKept.plan_parents (h : ParentsKept t t') {new : NewExecutionPlan F}
    (hparents : validateExecutionPlanParents t new = .ok ()) :
    validateExecutionPlanParents t' new = .ok () := by
  simp only [validateExecutionPlanParents, bind_ok, need_ok] at hparents ⊢
  obtain ⟨_, hrisk, risk, rfl, _, hintent, intent, rfl, hnew⟩ := hparents
  exact ⟨_, h.fetch_risk hrisk, risk, rfl, _, h.fetch_intent hintent, intent, rfl, hnew⟩

theorem ParentsKept.state_identity (h : ParentsKept t t') {state : ExecutionCommandState}
    (hidentity : validateCommandStateIdentity t state = .ok ()) :
    validateCommandStateIdentity t' state = .ok () := by
  simp only [validateCommandStateIdentity, bind_ok, need_ok] at hidentity ⊢
  obtain ⟨row, hrow, hsame⟩ := hidentity
  exact ⟨row, h.command _ _ hrow, hsame⟩

theorem Committed.risk_valid (c : Committed codec w t₀ t' stored) :
    w.riskResult.validate = .ok () := by
  have hrun := c.ofRisk
  simp only [insertRiskResult, Script.bind_run, Script.query_run] at hrun
  obtain ⟨_, _, ⟨hvalid, -⟩, -⟩ := hrun
  exact invalidRecordOf_ok.mp hvalid

theorem Committed.plan_parents (c : Committed codec w t₀ t' stored) :
    validateExecutionPlanParents t' w.plan = .ok () := by
  have hrun := c.ofPlan
  simp only [insertExecutionPlan, Script.bind_run, Script.query_run] at hrun
  obtain ⟨_, _, ⟨hparents, -⟩, -⟩ := hrun
  exact c.extends_risk.kept.parents.plan_parents hparents

theorem Committed.state (c : Committed codec w t₀ t' stored) {state : ExecutionCommandState}
    (hstate : state ∈ w.commandStates) :
    validateCommandStateIdentity t' state = .ok () ∧
      ∃ existing, t'.states.get state.commandId = some existing ∧
        acceptsState existing state = true := by
  obtain ⟨u, any, v, hrun, -, hvt⟩ := Script.anyOf_each Extends.refl Extends.trans
    insertExecutionCommandState_extends c.ofStates state hstate
  obtain ⟨hidentity, existing, hexisting, haccepts⟩ := insertExecutionCommandState_ok hrun
  have huv : Extends u v := insertExecutionCommandState_extends state u any v hrun
  refine ⟨(huv.trans hvt).kept.parents.state_identity hidentity, existing, ?_, haccepts⟩
  exact Table.get_of_subset hvt.states.subset hexisting

/-! ## reading the workflow after updates -/

variable {states : StateTable} {rows : List (CommandRow F)} {pairs : List (CommandRow F ×
  ExecutionCommandState)}

theorem validateExecutionCommandGraph_definition {plan plan' : ExecutionPlan F}
    (hdefinition : plan'.definition = plan.definition)
    (hlegs : plan'.legs.map ExecutionLeg.definition = plan.legs.map ExecutionLeg.definition)
    (command : ExecutionCommand F) (riskId : RiskId) (createdAt : Int) (planRiskId : RiskId)
    (planCreatedAt : Int) (risk : RiskResult F) (intent : TradeIntent F) :
    validateExecutionCommandGraph command riskId createdAt plan' planRiskId planCreatedAt risk intent
      = validateExecutionCommandGraph command riskId createdAt plan planRiskId planCreatedAt risk
        intent := by
  have hfind : ∀ legId : LegId,
      (plan'.legs.find? fun leg => leg.definition.legId == legId).map ExecutionLeg.definition =
        (plan.legs.find? fun leg => leg.definition.legId == legId).map ExecutionLeg.definition := by
    intro legId
    have hboth := congrArg (List.find? fun d : ExecutionLegDefinition F => d.legId == legId) hlegs
    rw [List.find?_map, List.find?_map] at hboth
    exact hboth
  unfold validateExecutionCommandGraph
  rw [hdefinition]
  refine bind_congr fun planId => bind_congr fun legId => ?_
  have hleg := hfind legId
  cases hfound : plan.legs.find? fun leg => leg.definition.legId == legId with
  | none =>
    rw [hfound, Option.map_none, Option.map_eq_none_iff] at hleg
    rw [hleg]
  | some leg =>
    rw [hfound, Option.map_some, Option.map_eq_some_iff] at hleg
    obtain ⟨leg', hfound', hsame⟩ := hleg
    rw [hfound']
    show (reject _ _ >>= fun _ => reject (commandMatchesLeg command leg'.definition = false) _ >>= _)
      = _
    rw [hsame]
    rfl

theorem collectCommands_same {plan plan' : StoredExecutionPlan P F} (h : SamePlan plan plan')
    (risk : RiskResult F) (intent : StoredTradeIntent F) (seen rows : List (CommandRow F)) :
    collectCommands plan' risk intent seen rows = collectCommands plan risk intent seen rows := by
  induction rows generalizing seen with
  | nil => rfl
  | cons row rest ih =>
    unfold collectCommands
    rw [validateExecutionCommandGraph_definition h.definition h.legs, h.riskId, h.createdAt,
      h.definition]
    simp only [ih]

theorem legRead_rows {legs : List (ExecutionLeg F)}
    (h : List.Forall₂ (LegRead states rows) legs pairs) :
    (pairs.map Prod.fst).map some = (legs.map ExecutionLeg.definition).map fun d =>
      rows.find? fun row => row.command.legId == some d.legId := by
  induction h with
  | nil => rfl
  | cons hread _ ih =>
    simp only [List.map_cons, ih]
    rw [hread.row]

theorem LegRead.advanced {next : StateTable} {leg leg' : ExecutionLeg F}
    {p : CommandRow F × ExecutionCommandState} (h : LegRead states rows leg p)
    (hleg : leg'.definition = leg.definition) (hadvanced : StatesAdvanced states next)
    (hwindow : ∀ e, next.get p.1.command.commandId = some e → InWindow e) :
    ∃ q, LegRead next rows leg' q := by
  obtain ⟨e, he, haccepts⟩ := hadvanced _ _ h.state
  obtain ⟨hidentity, ⟨hcreated, hupdated⟩, -⟩ := validatePersistedCommandState_iff.mp h.valid
  have hsame := identity_of_accepts haccepts
  have hlater := updatedAt_of_accepts haccepts
  have hcreatedAt : e.createdAt = p.2.createdAt := by
    simp only [stateIdentity, Prod.mk.injEq] at hsame
    exact hsame.2.2.2.2
  refine ⟨(p.1, e), ?_, he, validatePersistedCommandState_iff.mpr ⟨hsame.trans hidentity, ?_,
    hwindow e he⟩⟩
  · rw [hleg]
    exact h.row
  · rw [hcreatedAt]
    exact ⟨hcreated, hupdated.trans hlater⟩

theorem WorkflowRead.again {planId : PlanId}
    (h : WorkflowRead codec.toPayloadCodec t₁.readback planId stored pairs)
    (hp : Progressed codec t₁ t)
    (hwindow : ∀ row ∈ planCommands t₁.commands planId, ∀ e,
      t.states.get row.command.commandId = some e → InWindow e) :
    ∃ plan' pairs', SamePlan stored.plan plan' ∧ pairs'.map Prod.fst = pairs.map Prod.fst ∧
      WorkflowRead codec.toPayloadCodec t.readback planId
        ⟨stored.intent, stored.riskResult, plan', pairs'.map Prod.fst, pairs'.map Prod.snd⟩
        pairs' := by
  obtain ⟨plan', hplan, hsame⟩ := hp.plans planId stored.plan h.plan
  have hlegs : ∀ leg' ∈ plan'.plan.legs, ∃ q,
      LegRead t.states (planCommands t₁.commands planId) leg' q := by
    intro leg' hleg'
    have hmem : leg'.definition ∈ stored.plan.plan.legs.map ExecutionLeg.definition := by
      rw [← hsame.legs]
      exact List.mem_map_of_mem hleg'
    obtain ⟨leg, hleg, hdefinition⟩ := List.mem_map.mp hmem
    obtain ⟨p, -, hread⟩ := forall₂_mem_left h.legs hleg
    exact hread.advanced hdefinition.symm hp.states
      (hwindow p.1 (List.mem_of_find?_eq_some hread.row))
  obtain ⟨pairs', hpairs'⟩ := exists_forall₂ hlegs
  have hparents := hp.kept.parents
  have hcommands : t.readback.commands = t₁.commands := hp.commands
  refine ⟨plan', pairs', hsame, ?_, hplan, ?_, ?_, ?_, ?_, ?_, rfl, rfl⟩
  · have hrows := (legRead_rows hpairs').trans
      ((congrArg (List.map _) hsame.legs).trans (legRead_rows h.legs).symm)
    exact List.map_injective_iff.mpr (Option.some_injective _) hrows
  · show t.fetchRiskResultById plan'.riskId = _
    rw [hsame.riskId]
    exact hparents.fetch_risk h.risk
  · show t.fetchTradeIntentById plan'.intentId = _
    rw [hsame.intentId]
    exact hparents.fetch_intent h.intent
  · rw [hcommands, collectCommands_same hsame]
    exact h.graph
  · have hlength := congrArg List.length hsame.legs
    rw [List.length_map, List.length_map] at hlength
    rw [hcommands]
    exact h.count.trans hlength.symm
  · rw [hcommands]
    exact hpairs'

theorem replaysState_again {pairs' : List (CommandRow F × ExecutionCommandState)}
    {rows' : List (CommandRow F)} {legs legs' : List (ExecutionLeg F)} {next : StateTable}
    (h : List.Forall₂ (LegRead states rows) legs pairs)
    (h' : List.Forall₂ (LegRead next rows') legs' pairs')
    (hfst : pairs'.map Prod.fst = pairs.map Prod.fst) (hadvanced : StatesAdvanced states next)
    {s : ExecutionCommandState} (hs : replaysState (pairs.map Prod.snd) s = true) :
    replaysState (pairs'.map Prod.snd) s = true := by
  -- a state that was read is the row of its own id
  have hself : ∀ {states : StateTable} {rows : List (CommandRow F)} {legs : List (ExecutionLeg F)}
      {pairs : List (CommandRow F × ExecutionCommandState)},
      List.Forall₂ (LegRead states rows) legs pairs → ∀ p ∈ pairs,
        p.2.commandId = p.1.command.commandId ∧ states.get p.2.commandId = some p.2 := by
    intro states rows legs pairs hall p hp
    obtain ⟨leg, -, hread⟩ := forall₂_mem_right hall hp
    exact ⟨Table.key_of_get hread.state, Table.get_self hread.state⟩
  obtain ⟨e, he, hreplays⟩ := (Option.any_eq_true _ _).mp hs
  obtain ⟨hmem, hid⟩ := find_key he
  obtain ⟨p, hp, rfl⟩ := List.mem_map.mp hmem
  obtain ⟨hcommand, hget⟩ := hself h p hp
  have hfound : s.commandId ∈ (pairs'.map Prod.snd).map ExecutionCommandState.commandId := by
    have hrow : p.1 ∈ pairs'.map Prod.fst := by
      rw [hfst]
      exact List.mem_map_of_mem hp
    obtain ⟨q, hq, hqp⟩ := List.mem_map.mp hrow
    rw [List.map_map]
    refine List.mem_map.mpr ⟨q, hq, ?_⟩
    show q.2.commandId = s.commandId
    rw [(hself h' q hq).1, hqp, ← hcommand, hid]
  obtain ⟨e', he'⟩ := exists_find_key hfound
  obtain ⟨hmem', hid'⟩ := find_key he'
  obtain ⟨q, hq, rfl⟩ := List.mem_map.mp hmem'
  obtain ⟨later, hlater, haccepts⟩ := hadvanced _ _ hget
  have hsame : later = q.2 := by
    have hq' := (hself h' q hq).2
    rw [hid', ← hid] at hq'
    exact Option.some.inj (hlater.symm.trans hq')
  subst hsame
  simp only [Bool.and_eq_true, decide_eq_true_eq, sameCommandStateIdentity_iff] at hreplays
  unfold replaysState
  rw [he', Option.any_some]
  simp only [Bool.and_eq_true, decide_eq_true_eq, sameCommandStateIdentity_iff]
  exact ⟨(identity_of_accepts haccepts).trans hreplays.1,
    hreplays.2.trans (updatedAt_of_accepts haccepts)⟩

/-! ## the second commit -/

/-- the states of the commands of a workflow can be read -/
def StatesInWindow (w : NewExecutionWorkflow F) (t : WorkflowTables P F) : Prop :=
  ∀ c ∈ w.commands, ∀ e, t.states.get c.command.commandId = some e → InWindow e

theorem readBack_again (h : readBackWorkflow codec w t₁ = .ok stored) (hw : WellShaped w)
    (hp : Progressed codec t₁ t) (hwindow : StatesInWindow w t) :
    ∃ again, readBackWorkflow codec w t = .ok again := by
  obtain ⟨pairs, intent, hread, hintent, hreplays⟩ := readBackWorkflow_ok.mp h
  have hrows := (held_of_read h).rows hw (count_of_read h)
  have hwindows : ∀ row ∈ planCommands t₁.commands w.plan.planId, ∀ e,
      t.states.get row.command.commandId = some e → InWindow e := by
    intro row hrow
    obtain ⟨c, hc, rfl⟩ := (hrows row).mp hrow
    exact hwindow c hc
  obtain ⟨plan', pairs', hsame, hfst, hread'⟩ := hread.again hp hwindows
  have hcommands : pairs'.map Prod.fst = stored.commands := hfst.trans hread.commands.symm
  refine ⟨_, readBackWorkflow_ok.mpr ⟨pairs', intent, hread', ?_, ?_⟩⟩
  · show t.intents.get plan'.intentId = some intent
    rw [hsame.intentId]
    exact hp.kept.parents.intent _ _ hintent
  · refine ⟨hreplays.intent, hreplays.risk, ?_, hsame.riskId.trans hreplays.riskId,
      hsame.intentId.trans hreplays.intentId, hsame.createdAt.trans hreplays.createdAt, ?_, ?_, ?_,
      ?_⟩
    · show codec.journal w.plan.journal = .ok plan'.payload
      rw [hsame.payload]
      exact hreplays.payload
    · show (pairs'.map Prod.fst).length = _
      rw [hcommands]
      exact hreplays.commandCount
    · show ∀ c ∈ w.commands, replaysCommand (pairs'.map Prod.fst) c = true
      rw [hcommands]
      exact hreplays.commands
    · have hlength := congrArg List.length hfst
      rw [List.length_map, List.length_map] at hlength
      show (pairs'.map Prod.snd).length = _
      rw [← hreplays.stateCount, hread.states, List.length_map, List.length_map, hlength]
    · intro s hs
      have hstate := hreplays.states s hs
      rw [hread.states] at hstate
      exact replaysState_again hread.legs hread'.legs hfst hp.states hstate

theorem Committed.again (c : Committed codec w t₀ t₁ stored) (hp : Progressed codec t₁ t)
    {again : StoredExecutionWorkflow P F} (hread : readBackWorkflow codec w t = .ok again) :
    commitExecutionWorkflowOn codec w t = (.ok (.duplicate again), t) := by
  have hheld := held_of_read hread
  have hparents := hp.kept.parents
  obtain ⟨pairs, intent, hworkflow, hintent, hreplays⟩ := readBackWorkflow_ok.mp hread
  have hrisk : t.fetchRiskResultById w.riskResult.riskId = .ok (some w.riskResult) := by
    have hfetch : t.fetchRiskResultById again.plan.riskId = .ok (some again.riskResult) :=
      hworkflow.risk
    rw [hreplays.riskId, (validateNewExecutionWorkflow_shape c.valid).riskId,
      hreplays.risk] at hfetch
    exact hfetch
  have hplan : sameExecutionPlan again.plan w.plan again.plan.payload = true := by
    simp only [sameExecutionPlan, hreplays.riskId, hreplays.intentId, hreplays.createdAt,
      beq_self_eq_true, decide_true, Bool.and_self]
  have hstates : ∀ s ∈ w.commandStates, insertExecutionCommandState s t = (.ok false, t) := by
    intro s hs
    obtain ⟨hidentity, existing, hexisting, haccepts⟩ := c.state hs
    obtain ⟨later, hlater, haccepts'⟩ := hp.states _ _ hexisting
    exact insertExecutionCommandState_idle (hparents.state_identity hidentity) hlater
      (acceptsState_trans haccepts' haccepts)
  exact commitExecutionWorkflowOn_ok.mpr ⟨again, ⟨t, t, t, t, false, false, false, false, false,
    c.valid, insertTradeIntent_idle (insertTradeIntent_ok c.ofIntent).1 hheld.intent,
    insertRiskResult_idle c.risk_valid hrisk, insertExecutionPlan_idle
      (hparents.plan_parents c.plan_parents) hreplays.payload hworkflow.plan hplan,
    Script.anyOf_idle fun cmd hcmd => insertExecutionCommand_idle (hheld.commands cmd hcmd),
    Script.anyOf_idle hstates, hread⟩, rfl⟩

theorem inWindow_of_read (h : readBackWorkflow codec w t = .ok stored) : StatesInWindow w t := by
  obtain ⟨pairs, intent, hread, -, hreplays⟩ := readBackWorkflow_ok.mp h
  intro c hc e he
  have hrow := replaysCommand_row (hreplays.commands c hc)
  rw [hread.commands] at hrow
  obtain ⟨p, hp, hpc⟩ := List.mem_map.mp hrow
  obtain ⟨leg, -, hleg⟩ := forall₂_mem_right hread.legs hp
  have hstate := hleg.state
  rw [hpc] at hstate
  obtain rfl : p.2 = e := Option.some.inj (hstate.symm.trans he)
  exact (validatePersistedCommandState_iff.mp hleg.valid).2.2

/-! ## a commit that fails -/

theorem commitExecutionWorkflowOn_error {e : StoreError}
    (h : commitExecutionWorkflowOn codec w t = (.error e, t')) : t' = t := by
  unfold commitExecutionWorkflowOn at h
  cases hvalid : validateNewExecutionWorkflow w with
  | error e' =>
    rw [Script.query_failure (s := t) hvalid] at h
    exact (congrArg Prod.snd h).symm
  | ok u =>
    rw [Script.query_success (s := t) hvalid] at h
    exact Script.savepoint_error h

theorem commitExecutionWorkflowOn_clash (hcodec : codec.Faithful) (hw : WellShaped w)
    (h : Held codec w t) (hshares : Shares w w') (hdiffer : ¬ SameRecord w w') :
    ∃ e, commitExecutionWorkflowOn codec w' t = (.error e, t) := by
  cases hrun : commitExecutionWorkflowOn codec w' t with
  | mk result t' =>
    cases result with
    | error e =>
      rw [commitExecutionWorkflowOn_error hrun]
      exact ⟨e, rfl⟩
    | ok out =>
      obtain ⟨stored', c, -⟩ := commitExecutionWorkflowOn_ok.mp hrun
      have hw' := validateNewExecutionWorkflow_shape c.valid
      have hheld := h.kept c.extends.kept
      have hheld' := held_of_read c.read
      have hplan := planId_of_shares hw hw' hheld hheld' hshares
      exact absurd
        (sameRecord_of_held hcodec hw hw' hheld hheld' hplan (count_of_read c.read)) hdiffer

end

/-! ## runs -/

inductive WorkflowCall (F : Type) where
  | lifecycle (call : LifecycleCall)
  | commit (workflow : NewExecutionWorkflow F)

/-- the tables after an accepted call -/
def WorkflowCall.apply (codec : JournalCodec P F) (t : WorkflowTables P F) :
    WorkflowCall F → StoreCheck (WorkflowTables P F)
  | .lifecycle call => call.apply codec t
  | .commit workflow =>
    match commitExecutionWorkflowOn codec workflow t with
    | (.ok _, t') => .ok t'
    | (.error e, _) => .error e

def workflowRun (codec : JournalCodec P F) (t : WorkflowTables P F) (calls : List (WorkflowCall F)) :
    StoreCheck (WorkflowTables P F) :=
  calls.foldlM (WorkflowCall.apply codec) t

theorem WorkflowCall.apply_kept {codec : JournalCodec P F} {t next : WorkflowTables P F}
    {call : WorkflowCall F} (h : call.apply codec t = .ok next) : RowsKept t next := by
  cases call with
  | lifecycle call => exact (LifecycleCall.apply_progressed h).kept
  | commit w =>
    unfold WorkflowCall.apply at h
    cases hrun : commitExecutionWorkflowOn codec w t with
    | mk result t' =>
      cases result with
      | error e =>
        simp only [hrun] at h
        cases h
      | ok out =>
        simp only [hrun] at h
        cases h
        obtain ⟨_, c, -⟩ := commitExecutionWorkflowOn_ok.mp hrun
        exact c.extends.kept

theorem workflowRun_kept {codec : JournalCodec P F} {t next : WorkflowTables P F}
    {calls : List (WorkflowCall F)} (h : workflowRun codec t calls = .ok next) : RowsKept t next :=
  foldlM_related RowsKept.refl RowsKept.trans (fun _ _ _ => WorkflowCall.apply_kept) h

/-- A committed workflow is committed again after any accepted updates: it is a `Duplicate` that
writes nothing exactly if the stored states of its commands lie in their windows.  After any calls a
workflow that clashes with it is refused and writes nothing. -/
theorem recommit_duplicate_iff {codec : JournalCodec P F} (hcodec : codec.Faithful)
    {w : NewExecutionWorkflow F} {t₀ t₁ : WorkflowTables P F} {stored : StoredExecutionWorkflow P F}
    (hcommit : commitExecutionWorkflowOn codec w t₀ = (.ok (.inserted stored), t₁)) :
    (∀ calls t, lifecycleRun codec t₁ calls = .ok t →
      ((∃ again, commitExecutionWorkflowOn codec w t = (.ok (.duplicate again), t)) ↔
        StatesInWindow w t)) ∧
    ∀ calls t w', workflowRun codec t₁ calls = .ok t → Shares w w' → ¬ SameRecord w w' →
      ∃ e, commitExecutionWorkflowOn codec w' t = (.error e, t) := by
  obtain ⟨_, c, -⟩ := commitExecutionWorkflowOn_ok.mp hcommit
  have hw := validateNewExecutionWorkflow_shape c.valid
  refine ⟨fun calls t hrun => ⟨?_, fun hwindow => ?_⟩, fun calls t w' hrun hshares hdiffer => ?_⟩
  · rintro ⟨again, hagain⟩
    obtain ⟨_, c', -⟩ := commitExecutionWorkflowOn_ok.mp hagain
    exact inWindow_of_read c'.read
  · have hp := lifecycleRun_progressed hrun
    obtain ⟨again, hread⟩ := readBack_again c.read hw hp hwindow
    exact ⟨again, c.again hp hread⟩
  · have hheld := (held_of_read c.read).kept (workflowRun_kept hrun)
    exact commitExecutionWorkflowOn_clash hcodec hw hheld hshares hdiffer

end

/-! ## a dispatch from the future

The gold order with its one command.  Its state is updated to a dispatch that lies after the
update. -/

def goldJournal : ExecutionPlanJournal ℚ :=
  ⟨"risk-1", "intent-1", goldPlanDefinition, [goldLegDefinition]⟩

def goldJournalCodec : JournalCodec String ℚ :=
  { goldCodec with
    journal := fun j => if j = goldJournal then .ok goldPlanPayload else .error .database }

def goldCommand : ExecutionCommand ℚ where
  commandId := "command-1"
  planId := some "plan-1"
  legId := some "leg:intent-1:0"
  strategyId := "strategy-1"
  accountId := "account-1"
  terminalId := none
  clientId := none
  symbol := "XAUUSD"
  brokerSymbol := none
  action := .buy
  orderType := some .market
  lots := some (1 / 10)
  price := none
  sl := some 1990
  tp := some (4041 / 2)
  deviationPoints := none
  magic := 7
  comment := none
  positionTicket := none
  brokerOrderId := none
  fillingPolicy := none
  timePolicy := none
  expirationTime := none
  expiresAt := 30000
  idempotencyKey := "command-key-1"
  hmac := goldHash

def goldCreated : ExecutionCommandState :=
  { goldState .created with deliveryAttempts := 0, dispatchedAt := none, updatedAt := 10000 }

def goldWorkflow : NewExecutionWorkflow ℚ where
  intent := ⟨goldIntent, .accepted, 9600⟩
  riskResult := goldResult
  plan := ⟨goldStored.plan, "risk-1", "intent-1", 10000⟩
  commands := [⟨goldCommand, "risk-1", 10000⟩]
  commandStates := [goldCreated]

def emptyWorkflows : WorkflowTables String ℚ := ⟨.empty, .empty, .empty, .empty, .empty, .empty⟩

/-- the command is dispatched at `dispatchedAt`, and updated at 10500 -/
def goldDispatch (dispatchedAt : Int) : LifecycleCall :=
  .command ⟨.created, 10000, { goldState .dispatched with dispatchedAt := some dispatchedAt }⟩

theorem goldJournalCodec_faithful : goldJournalCodec.Faithful := by
  have hone : ∀ j payload, goldJournalCodec.journal j = .ok payload → j = goldJournal := by
    intro j payload h
    by_cases hj : j = goldJournal
    · exact hj
    · have hrefused : goldJournalCodec.journal j = .error .database := if_neg hj
      rw [hrefused] at h
      cases h
  intro j j' payload hj hj'
  rw [hone j payload hj, hone j' payload hj']

/-- the end of the first commit of the gold order, the state after the update, and the end of the
second -/
def goldOutcomes (dispatchedAt : Int) :
    Option (Bool × Option ExecutionCommandState × Except StoreError Bool) :=
  let first := commitExecutionWorkflowOn goldJournalCodec goldWorkflow emptyWorkflows
  (lifecycleRun goldJournalCodec first.2 [goldDispatch dispatchedAt]).toOption.map fun t =>
    (first.1.toOption.any WriteOutcome.wasInserted, t.states.get "command-1",
      (commitExecutionWorkflowOn goldJournalCodec goldWorkflow t).1.map WriteOutcome.wasInserted)

theorem goldOutcomes_run {dispatchedAt : Int} {state : Option ExecutionCommandState}
    {second : Except StoreError Bool} (h : goldOutcomes dispatchedAt = some (true, state, second)) :
    ∃ stored t₁ t,
      commitExecutionWorkflowOn goldJournalCodec goldWorkflow emptyWorkflows =
        (.ok (.inserted stored), t₁) ∧
      lifecycleRun goldJournalCodec t₁ [goldDispatch dispatchedAt] = .ok t ∧
      t.states.get "command-1" = state ∧
      (commitExecutionWorkflowOn goldJournalCodec goldWorkflow t).1.map WriteOutcome.wasInserted =
        second := by
  obtain ⟨t, hrun, hresult⟩ := Option.map_eq_some_iff.mp h
  simp only [Prod.mk.injEq] at hresult
  obtain ⟨hfirst, hstate, hsecond⟩ := hresult
  obtain ⟨out, hout, hinserted⟩ := (Option.any_eq_true _ _).mp hfirst
  cases out with
  | duplicate record => cases hinserted
  | inserted record =>
    exact ⟨record, _, t, Prod.ext (ok_of_toOption hout) rfl, ok_of_toOption hrun, hstate, hsecond⟩

/-- the order with another number of lots under the same command -/
def goldClash : NewExecutionWorkflow ℚ :=
  { goldWorkflow with
    commands := [⟨{ goldCommand with lots := some (1 / 5) }, "risk-1", 10000⟩] }

/-- after a dispatch in its time the second commit is a duplicate, and the clash is refused -/
theorem recommit_duplicate_sample :
    ∃ stored t₁ t,
      commitExecutionWorkflowOn goldJournalCodec goldWorkflow emptyWorkflows =
        (.ok (.inserted stored), t₁) ∧
      lifecycleRun goldJournalCodec t₁ [goldDispatch 10500] = .ok t ∧
      (∃ again, commitExecutionWorkflowOn goldJournalCodec goldWorkflow t =
        (.ok (.duplicate again), t)) ∧
      ∃ e, commitExecutionWorkflowOn goldJournalCodec goldClash t = (.error e, t) := by
  have houtcomes : goldOutcomes 10500 = some (true, some (goldState .dispatched), .ok false) := by
    decide +kernel
  obtain ⟨stored, t₁, t, hfirst, hrun, hstate, -⟩ := goldOutcomes_run houtcomes
  obtain ⟨hduplicate, hclash⟩ := recommit_duplicate_iff goldJournalCodec_faithful hfirst
  refine ⟨stored, t₁, t, hfirst, hrun, (hduplicate _ t hrun).mpr ?_, ?_⟩
  · intro c hc e he
    rw [List.mem_singleton.mp hc] at he
    obtain rfl : goldState .dispatched = e := Option.some.inj (hstate.symm.trans he)
    decide
  · refine hclash [.lifecycle (goldDispatch 10500)] t goldClash ?_ (.inl rfl) ?_
    · exact hrun
    · intro hsame
      have hmem := (hsame.commands _).mp (List.mem_singleton.mpr rfl)
      have hlots := congrArg (fun c : NewExecutionCommand ℚ => c.command.lots)
        (List.mem_singleton.mp hmem)
      exact absurd hlots (by decide +kernel)

/-- A dispatch at 20000 is accepted at 10500, and the second commit reports corrupt data. -/
theorem recommit_after_future_dispatch :
    ∃ stored t₁ t,
      commitExecutionWorkflowOn goldJournalCodec goldWorkflow emptyWorkflows =
        (.ok (.inserted stored), t₁) ∧
      lifecycleRun goldJournalCodec t₁ [goldDispatch 20000] = .ok t ∧
      ¬ (∃ again, commitExecutionWorkflowOn goldJournalCodec goldWorkflow t =
        (.ok (.duplicate again), t)) ∧
      (commitExecutionWorkflowOn goldJournalCodec goldWorkflow t).1.map WriteOutcome.wasInserted =
        .error (.corruptData "execution_command_state" "command-1"
          "dispatched_at is outside the persisted lifecycle window") := by
  have houtcomes : goldOutcomes 20000 =
      some (true, some { goldState .dispatched with dispatchedAt := some 20000 },
        .error (.corruptData "execution_command_state" "command-1"
          "dispatched_at is outside the persisted lifecycle window")) := by
    decide +kernel
  obtain ⟨stored, t₁, t, hfirst, hrun, -, hsecond⟩ := goldOutcomes_run houtcomes
  refine ⟨stored, t₁, t, hfirst, hrun, ?_, hsecond⟩
  rintro ⟨again, hagain⟩
  rw [hagain] at hsecond
  cases hsecond

end Sinan.Store
