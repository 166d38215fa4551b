import Sinan.Events.Log
import Sinan.Lib.Sorted
import Sinan.Store.Recommit
import Mathlib.Data.Prod.Lex
import Mathlib.Data.String.Basic

/-!
# The status of a workflow

An intent is read with its latest risk result and its latest plan.  Both go through the checks of
their readers, so one row that fails them would hide the whole workflow.  There is none: a table that
accepted statements have filled is `Legible`.
-/

set_option linter.unusedSectionVars false

namespace Sinan.Store

open Lib Execution

/-- an intent and what has come of it -/
structure TradeIntentWorkflowStatus (P F : Type) where
  intent : IntentRow F
  latestRiskResult : Option (RiskResult F)
  plan : Option (StoredExecutionPlan P F)
  commandIds : List CommandId
  deriving DecidableEq

section
variable {P F : Type} [DecidableEq P] [DecidableEq F] [F64 F]

/-! ## reading -/

/-- `ORDER BY r.evaluated_at DESC, r.risk_id DESC LIMIT 1` -/
def latestRiskRow (t : WorkflowTables P F) (intentId : IntentId) : Option (RiskResult F) :=
  (sortBy (fun row : RiskResult F => toLex (row.evaluatedAt, row.riskId))
    (t.risks.rows.filter fun row => row.intentId == intentId)).getLast?

/-- `ORDER BY updated_at DESC, plan_id DESC LIMIT 1` -/
def latestPlanRow (t : WorkflowTables P F) (intentId : IntentId) : Option (PlanRow P) :=
  (sortBy (fun row : PlanRow P => toLex (row.updatedAt, row.planId))
    (t.plans.rows.filter fun row => row.intentId == intentId)).getLast?

theorem latestRiskRow_mem {t : WorkflowTables P F} {intentId : IntentId} {row : RiskResult F}
    (h : latestRiskRow t intentId = some row) : row ∈ t.risks.rows :=
  (List.mem_filter.mp (mem_sortBy.mp (List.mem_of_getLast? h))).1

theorem latestPlanRow_mem {t : WorkflowTables P F} {intentId : IntentId} {row : PlanRow P}
    (h : latestPlanRow t intentId = some row) : row ∈ t.plans.rows :=
  (List.mem_filter.mp (mem_sortBy.mp (List.mem_of_getLast? h))).1

/-- the decoded row, if there is one -/
def decodeRow {ρ α : Type} (fromRow : ρ → StoreCheck α) : Option ρ → StoreCheck (Option α)
  | none => .ok none
  | some row => (fromRow row).map some

/-- `load_trade_intent_workflow_status`; an intent of an account outside the scope is not found -/
def loadTradeIntentWorkflowStatus (codec : PayloadCodec P F) (t : WorkflowTables P F)
    (scope : Events.AuthorizedAccountScope) (intentId : IntentId) :
    StoreCheck (Option (TradeIntentWorkflowStatus P F)) :=
  match (t.intents.get intentId).filter fun row => scope.contains row.intent.accountId with
  | none => .ok none
  | some intent => do
    let latestRiskResult ← decodeRow (riskResultFromRow t) (latestRiskRow t intentId)
    let plan ← decodeRow (executionPlanFromRow codec t.lifecycle) (latestPlanRow t intentId)
    let commandIds := match plan with
      | none => []
      | some plan =>
        sortBy id ((planCommands t.commands plan.plan.definition.planId).map fun row =>
          row.command.commandId)
    return some { intent, latestRiskResult, plan, commandIds }

/-! ## every stored row is read -/

section
variable {codec : PayloadCodec P F} {t t' : WorkflowTables P F}

/-- no reader refuses a risk result or a plan -/
structure Legible (codec : PayloadCodec P F) (t : WorkflowTables P F) : Prop where
  risk : ∀ row ∈ t.risks.rows, riskResultFromRow t row = .ok row
  plan : ∀ row ∈ t.plans.rows, ∃ stored,
    fetchExecutionPlanById codec t.lifecycle row.planId = .ok (some stored)

theorem Legible.empty : Legible codec (⟨.empty, .empty, .empty, .empty, .empty, .empty⟩ :
    WorkflowTables P F) where
  risk _ h := absurd h List.not_mem_nil
  plan _ h := absurd h List.not_mem_nil

theorem Legible.plan_row (h : Legible codec t) {row : PlanRow P} (hrow : row ∈ t.plans.rows) :
    ∃ stored, executionPlanFromRow codec t.lifecycle row = .ok stored := by
  obtain ⟨stored, hstored⟩ := h.plan row hrow
  obtain ⟨found, hfound, hread⟩ := fetchExecutionPlanById_ok.mp hstored
  have hself : (t.plans.rows.find? fun r => r.planId == row.planId) = some row :=
    find_key_self t.plans.keyed hrow
  obtain rfl : row = found := Option.some.inj (hself.symm.trans hfound)
  exact ⟨stored, hread⟩

theorem Legible.status (h : Legible codec t) {scope : Events.AuthorizedAccountScope}
    {intentId : IntentId} {intent : IntentRow F} (hintent : t.intents.get intentId = some intent)
    (hscope : scope.contains intent.intent.accountId = true) :
    ∃ workflow, loadTradeIntentWorkflowStatus codec t scope intentId = .ok (some workflow) := by
  have hrisk : ∃ risk, decodeRow (riskResultFromRow t) (latestRiskRow t intentId) = .ok risk := by
    cases hlatest : latestRiskRow t intentId with
    | none => exact ⟨none, rfl⟩
    | some row =>
      exact ⟨some row, congrArg (Except.map some) (h.risk row (latestRiskRow_mem hlatest))⟩
  have hplan : ∃ plan, decodeRow (executionPlanFromRow codec t.lifecycle)
      (latestPlanRow t intentId) = .ok plan := by
    cases hlatest : latestPlanRow t intentId with
    | none => exact ⟨none, rfl⟩
    | some row =>
      obtain ⟨stored, hstored⟩ := h.plan_row (latestPlanRow_mem hlatest)
      exact ⟨some stored, congrArg (Except.map some) hstored⟩
  obtain ⟨risk, hrisk⟩ := hrisk
  obtain ⟨plan, hplan⟩ := hplan
  have hfound : ((t.intents.get intentId).filter fun row =>
      scope.contains row.intent.accountId) = some intent := by
    rw [hintent]
    exact Option.filter_some_pos hscope
  unfold loadTradeIntentWorkflowStatus
  rw [hfound]
  simp only [hrisk, hplan]
  exact ⟨_, rfl⟩

/-! ## reading after a statement -/

/-- the step keeps the table legible -/
def LegibleKept (codec : PayloadCodec P F) (t t' : WorkflowTables P F) : Prop :=
  Legible codec t → Legible codec t'

theorem LegibleKept.refl (t : WorkflowTables P F) : LegibleKept codec t t := id

theorem LegibleKept.trans {a b c : WorkflowTables P F} (hab : LegibleKept codec a b)
    (hbc : LegibleKept codec b c) : LegibleKept codec a c := fun h => hbc (hab h)

theorem executionPlanFromRow_kept {row : PlanRow P} {stored : StoredExecutionPlan P F}
    (hparents : ParentsKept t t')
    (hlegs : planLegRows t'.lifecycle row.planId = planLegRows t.lifecycle row.planId)
    (h : executionPlanFromRow codec t.lifecycle row = .ok stored) :
    executionPlanFromRow codec t'.lifecycle row = .ok stored := by
  obtain ⟨journal, rows, legs, hdecodes, rfl⟩ := executionPlanFromRow_ok.mp h
  refine executionPlanFromRow_ok.mpr ⟨journal, rows, legs, { hdecodes with
    stored := ?_, parents := ?_ }, rfl⟩
  · have hstored := hdecodes.stored
    unfold storedLegs at hstored ⊢
    rw [hlegs]
    exact hstored
  · have hread := hdecodes.parents
    simp only [validatePlanParents, bind_ok, need_ok] at hread ⊢
    obtain ⟨_, hrisk, risk, rfl, _, hintent, intent, rfl, hgraph⟩ := hread
    exact ⟨_, hparents.fetch_risk hrisk, risk, rfl, _, hparents.fetch_intent hintent, intent, rfl,
      hgraph⟩

theorem Extends.plansKept (h : Extends t t') (hlegs : ∀ row ∈ t.plans.rows,
      planLegRows t'.lifecycle row.planId = planLegRows t.lifecycle row.planId) :
    PlansKept codec t.lifecycle t'.lifecycle := by
  intro planId stored hstored
  obtain ⟨row, hfound, hread⟩ := fetchExecutionPlanById_ok.mp hstored
  obtain ⟨hrow, hplan⟩ := find_key hfound
  obtain ⟨added, hadded⟩ := h.plans
  have hfound' : (t'.lifecycle.plans.find? fun row => row.planId == planId) = some row := by
    show t'.plans.rows.find? _ = _
    rw [← hadded, List.find?_append]
    exact congrArg (Option.or · _) hfound
  refine ⟨stored, fetchExecutionPlanById_ok.mpr ⟨row, hfound', ?_⟩, SamePlan.refl stored⟩
  exact executionPlanFromRow_kept h.kept.parents (hlegs row hrow) hread

theorem Legible.kept (h : Legible codec t) (hparents : ParentsKept t t')
    (hplans : PlansKept codec t.lifecycle t'.lifecycle)
    (hrisk : ∀ row ∈ t'.risks.rows, row ∈ t.risks.rows ∨ riskResultFromRow t' row = .ok row)
    (hplan : ∀ row ∈ t'.plans.rows, row.planId ∈ t.plans.rows.map PlanRow.planId ∨
      ∃ stored, fetchExecutionPlanById codec t'.lifecycle row.planId = .ok (some stored)) :
    Legible codec t' where
  risk row hrow := by
    rcases hrisk row hrow with hold | hnew
    · exact hparents.risk_row (h.risk row hold)
    · exact hnew
  plan row hrow := by
    rcases hplan row hrow with hold | hnew
    · obtain ⟨before, hbefore, hid⟩ := List.mem_map.mp hold
      obtain ⟨stored, hstored⟩ := h.plan before hbefore
      obtain ⟨stored', hstored', -⟩ := hplans _ stored hstored
      rw [hid] at hstored'
      exact ⟨stored', hstored'⟩
    · exact hnew

theorem Extends.legible (h : Extends t t') (hplans : t'.plans = t.plans) (hlegs : t'.legs = t.legs)
    (hrisk : ∀ row ∈ t'.risks.rows, row ∈ t.risks.rows ∨ riskResultFromRow t' row = .ok row) :
    LegibleKept codec t t' := by
  intro hlegible
  have hkept : PlansKept codec t.lifecycle t'.lifecycle := by
    refine h.plansKept fun row _ => ?_
    show t'.legs.rows.filter _ = t.legs.rows.filter _
    rw [hlegs]
  refine hlegible.kept h.kept.parents hkept hrisk fun row hrow => .inl ?_
  rw [hplans] at hrow
  exact List.mem_map_of_mem hrow

/-! ## every statement keeps the table legible -/

theorem insertTradeIntent_legible (new : NewTradeIntent F) :
    Script.Keeps (LegibleKept codec) (insertTradeIntent new : Statement P F Bool) := by
  intro t b t' hrun
  have hext := insertTradeIntent_extends new t b t' hrun
  obtain ⟨-, ⟨intents, -, rfl⟩ | rfl⟩ := insertTradeIntent_ok hrun
  · exact hext.legible rfl rfl fun row hrow => .inl hrow
  · exact LegibleKept.refl t'

theorem insertRiskResult_legible (result : RiskResult F) :
    Script.Keeps (LegibleKept codec) (insertRiskResult result : Statement P F Bool) := by
  intro t b t' hrun
  have hext := insertRiskResult_extends result t b t' hrun
  simp only [insertRiskResult, Script.bind_run, Script.query_run] at hrun
  obtain ⟨_, _, ⟨hvalid, rfl⟩, existing, _, ⟨-, rfl⟩, hrun⟩ := hrun
  cases existing with
  | some existing =>
    simp only [Script.bind_run, Script.query_run, Script.pure_run] at hrun
    obtain ⟨_, _, ⟨-, rfl⟩, -, rfl⟩ := hrun
    exact LegibleKept.refl _
  | none =>
    simp only [Script.bind_run, Script.query_run, Script.write_run, bind_ok, need_ok, pure_ok,
      Prod.mk.injEq] at hrun
    obtain ⟨_, _, ⟨hidentity, rfl⟩, risks, hinsert, -, rfl⟩ := hrun
    refine hext.legible rfl rfl fun row hrow => ?_
    have hrow : row ∈ risks.rows := hrow
    rw [Table.ofRows_rows hinsert] at hrow
    rcases List.mem_append.mp hrow with hrow | hrow
    · exact .inl hrow
    · obtain rfl := List.mem_singleton.mp hrow
      refine .inr (hext.kept.parents.risk_row ?_)
      exact riskResultFromRow_inserted (invalidRecordOf_ok.mp hvalid) hidentity

/-- leg rows of one plan are written, and nothing else -/
structure LegsAdded (planId : PlanId) (t t' : WorkflowTables P F) : Prop where
  plans : t'.plans = t.plans
  risks : t'.risks = t.risks
  others : ∀ other, other ≠ planId → planLegRows t'.lifecycle other = planLegRows t.lifecycle other

theorem LegsAdded.refl {planId : PlanId} (t : WorkflowTables P F) : LegsAdded planId t t :=
  ⟨rfl, rfl, fun _ _ => rfl⟩

theorem LegsAdded.trans {planId : PlanId} {a b c : WorkflowTables P F} (hab : LegsAdded planId a b)
    (hbc : LegsAdded planId b c) : LegsAdded planId a c :=
  ⟨hbc.plans.trans hab.plans, hbc.risks.trans hab.risks,
    fun other hother => (hbc.others other hother).trans (hab.others other hother)⟩

theorem insertExecutionLeg_added (codec : JournalCodec P F) (new : NewExecutionPlan F)
    (leg : ExecutionLeg F) :
    Script.Keeps (LegsAdded new.planId) (insertExecutionLeg codec new leg) := by
  refine .write fun t b t' h => ?_
  simp only [bind_ok, need_ok, pure_ok, Prod.mk.injEq] at h
  obtain ⟨payload, -, legs, hinsert, -, rfl⟩ := h
  refine ⟨rfl, rfl, fun other hother => ?_⟩
  show legs.rows.filter _ = t.legs.rows.filter _
  rw [Table.ofRows_rows hinsert, List.filter_append]
  have hnone : ((new.planId == other) = false) := beq_false_of_ne (Ne.symm hother)
  simp only [List.filter_cons, hnone, List.filter_nil, List.append_nil, Bool.false_eq_true, if_false]

theorem insertPlanRows_legible {codec : JournalCodec P F} {new : NewExecutionPlan F} {payload : P}
    {b : Bool} (hrun : insertPlanRows codec new payload t = (.ok b, t')) :
    LegibleKept codec.toPayloadCodec t t' := by
  have hext := insertPlanRows_extends codec new payload t b t' hrun
  simp only [insertPlanRows, Script.bind_run, Script.query_run, Script.write_run, bind_ok, need_ok,
    pure_ok, Prod.mk.injEq] at hrun
  obtain ⟨_, _, ⟨plans, hinsert, -, rfl⟩, _, _, hlegs, stored, _, ⟨hread, rfl⟩, _, _, ⟨hsome, rfl⟩,
    hdone⟩ := hrun
  obtain ⟨-, rfl⟩ := Script.pure_run.mp hdone
  obtain ⟨hplans, hrisks, hothers⟩ := Script.Keeps.forEach LegsAdded.refl LegsAdded.trans
    (insertExecutionLeg_added codec new) _ _ _ _ hlegs
  -- the id of the new plan is that of no plan before
  have hfresh : ∀ row ∈ t.plans.rows, row.planId ≠ new.planId := by
    intro row hrow hsame
    have hget : t.plans.get (new.row payload).planId = some row :=
      Table.get_eq_some.mpr ⟨hrow, hsame⟩
    rw [Table.insert_fresh hinsert] at hget
    cases hget
  intro hlegible
  refine hlegible.kept hext.kept.parents (hext.plansKept fun row hrow => hothers _ (hfresh row hrow))
    (fun row hrow => .inl (hrisks ▸ hrow)) fun row hrow => ?_
  have hrow : row ∈ plans.rows := by
    rw [hplans] at hrow
    exact hrow
  rw [Table.ofRows_rows hinsert] at hrow
  rcases List.mem_append.mp hrow with hrow | hrow
  · exact .inl (List.mem_map_of_mem hrow)
  · obtain rfl := List.mem_singleton.mp hrow
    cases stored with
    | none => exact absurd rfl (reject_ok.mp hsome)
    | some stored => exact .inr ⟨stored, hread⟩

theorem insertExecutionPlan_legible (codec : JournalCodec P F) (new : NewExecutionPlan F) :
    Script.Keeps (LegibleKept codec.toPayloadCodec) (insertExecutionPlan codec new) := by
  refine .bind LegibleKept.trans (.query LegibleKept.refl _) fun _ => ?_
  refine .bind LegibleKept.trans (.query LegibleKept.refl _) fun payload => ?_
  refine .bind LegibleKept.trans (.query LegibleKept.refl _) fun existing => ?_
  cases existing with
  | some existing =>
    exact .bind LegibleKept.trans (.query LegibleKept.refl _) fun _ => .pure LegibleKept.refl _
  | none => exact fun t b t' hrun => insertPlanRows_legible hrun

theorem insertExecutionCommand_legible (new : NewExecutionCommand F) :
    Script.Keeps (LegibleKept codec) (insertExecutionCommand new : Statement P F Bool) := by
  intro t b t' hrun
  have hwrite := Script.write_run.mp hrun
  cases hinsert : t.commands.insert new.row with
  | some commands =>
    simp only [hinsert] at hwrite
    cases hwrite
    exact fun h => ⟨h.risk, h.plan⟩
  | none =>
    simp only [hinsert] at hwrite
    split at hwrite
    · split at hwrite
      · cases hwrite
        exact LegibleKept.refl t
      · cases hwrite
    · cases hwrite

theorem insertExecutionCommandState_legible (state : ExecutionCommandState) :
    Script.Keeps (LegibleKept codec) (insertExecutionCommandState state : Statement P F Bool) := by
  refine .bind LegibleKept.trans (.query LegibleKept.refl _) fun _ => ?_
  intro t b t' hrun
  have hwrite := Script.write_run.mp hrun
  cases hinsert : t.states.insert state with
  | some states =>
    simp only [hinsert] at hwrite
    cases hwrite
    exact fun h => ⟨h.risk, h.plan⟩
  | none =>
    simp only [hinsert, bind_ok, exists_unit, pure_ok, Prod.mk.injEq] at hwrite
    obtain ⟨_, -, -, -, rfl⟩ := hwrite
    exact LegibleKept.refl t

theorem LifecycleCall.apply_legible {codec : JournalCodec P F} {call : LifecycleCall}
    (h : call.apply codec t = .ok t') : LegibleKept codec.toPayloadCodec t t' := by
  have hprogressed := LifecycleCall.apply_progressed h
  intro hlegible
  refine hlegible.kept hprogressed.kept.parents hprogressed.plans
    (fun row hrow => .inl (hprogressed.risks ▸ hrow)) fun row hrow => .inl ?_
  rw [← LifecycleCall.apply_planIds h]
  exact List.mem_map_of_mem hrow

/-! ## all statements -/

/-- every accepted statement leads to a related state -/
structure StatementsKeep (codec : JournalCodec P F)
    (R : WorkflowTables P F → WorkflowTables P F → Prop) : Prop where
  refl : ∀ t, R t t
  trans : ∀ {a b c}, R a b → R b c → R a c
  intent : ∀ new, Script.Keeps R (insertTradeIntent new)
  risk : ∀ result, Script.Keeps R (insertRiskResult result)
  plan : ∀ new, Script.Keeps R (insertExecutionPlan codec new)
  command : ∀ new, Script.Keeps R (insertExecutionCommand new)
  state : ∀ state, Script.Keeps R (insertExecutionCommandState state)
  lifecycle : ∀ {t t'} {call : LifecycleCall}, call.apply codec t = .ok t' → R t t'

theorem StatementsKeep.call {codec : JournalCodec P F}
    {R : WorkflowTables P F → WorkflowTables P F → Prop} (hR : StatementsKeep codec R)
    {call : WorkflowCall F} (h : call.apply codec t = .ok t') : R t t' := by
  cases call with
  | lifecycle call => exact hR.lifecycle h
  | commit workflow =>
    unfold WorkflowCall.apply at h
    cases hrun : commitExecutionWorkflowOn codec workflow t with
    | mk result next =>
      cases result with
      | error e =>
        simp only [hrun] at h
        cases h
      | ok out =>
        simp only [hrun] at h
        cases h
        obtain ⟨_, c, -⟩ := commitExecutionWorkflowOn_ok.mp hrun
        have hrows : R t c.afterPlan :=
          hR.trans (hR.trans (hR.intent _ _ _ _ c.ofIntent) (hR.risk _ _ _ _ c.ofRisk))
            (hR.plan _ _ _ _ c.ofPlan)
        have hcommands : R c.afterPlan c.afterCommands :=
          Script.Keeps.anyOf hR.refl hR.trans hR.command _ _ _ _ c.ofCommands
        have hstates : R c.afterCommands t' :=
          Script.Keeps.anyOf hR.refl hR.trans hR.state _ _ _ _ c.ofStates
        exact hR.trans (hR.trans hrows hcommands) hstates

theorem rowsKept_statements (codec : JournalCodec P F) :
    StatementsKeep codec (RowsKept (P := P) (F := F)) where
  refl := RowsKept.refl
  trans := RowsKept.trans
  intent new t b t' h := (insertTradeIntent_extends new t b t' h).kept
  risk result t b t' h := (insertRiskResult_extends result t b t' h).kept
  plan new t b t' h := (insertExecutionPlan_extends codec new t b t' h).kept
  command new t b t' h := (insertExecutionCommand_extends new t b t' h).kept
  state state t b t' h := (insertExecutionCommandState_extends state t b t' h).kept
  lifecycle h := (LifecycleCall.apply_progressed h).kept

theorem legible_statements (codec : JournalCodec P F) :
    StatementsKeep codec (LegibleKept codec.toPayloadCodec) where
  refl := LegibleKept.refl
  trans := LegibleKept.trans
  intent := insertTradeIntent_legible
  risk := insertRiskResult_legible
  plan := insertExecutionPlan_legible codec
  command := insertExecutionCommand_legible
  state := insertExecutionCommandState_legible
  lifecycle := LifecycleCall.apply_legible

end

end

end Sinan.Store
