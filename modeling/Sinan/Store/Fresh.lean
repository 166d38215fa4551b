import Sinan.Store.Recommit

/-!
# A workflow committed for the first time

The intent is stored and has no risk result.  Its workflow is committed exactly if it passes the
checks and there is room for it: no row has the id of its approval, of its plan or of one of its legs,
and none the id or the key of one of its commands.  The tables keep the foreign keys of the schema.
-/

set_option linter.unusedSectionVars false

namespace Sinan.Store

open Lib Execution

/-- every definition has a payload, and the payload is read as the definition -/
structure JournalCodec.Lawful {P F : Type} (codec : JournalCodec P F) : Prop where
  leg : ∀ definition, ∃ payload,
    codec.canonical definition = some payload ∧ codec.leg payload = some definition
  plan : ∀ journal, ∃ payload,
    codec.journal journal = .ok payload ∧ codec.plan payload = some journal

/-- the `FOREIGN KEY` clauses between the tables of a workflow -/
structure ForeignKeys {P F : Type} (t : WorkflowTables P F) : Prop where
  plan : ∀ row ∈ t.plans.rows, t.risks.get row.riskId ≠ none
  leg : ∀ row ∈ t.legs.rows, t.plans.get row.planId ≠ none
  command : ∀ row ∈ t.commands.rows, ∀ planId, row.command.planId = some planId →
    t.plans.get planId ≠ none
  state : ∀ row ∈ t.states.rows, t.commands.get row.commandId ≠ none

/-- no row has an identity of the workflow -/
structure Room {P F : Type} (w : NewExecutionWorkflow F) (t : WorkflowTables P F) : Prop where
  risk : t.risks.get w.riskResult.riskId = none
  plan : t.plans.get w.plan.planId = none
  legs : ∀ leg ∈ w.plan.plan.legs, t.legs.get leg.definition.legId = none
  commands : ∀ c ∈ w.commands, t.commands.get c.command.commandId = none ∧
    t.commands.seek c.command.idempotencyKey = none

/-- what the commit checks of a workflow besides the rows that are there -/
structure WorkflowChecked {F : Type} [F64 F] (w : NewExecutionWorkflow F) : Prop where
  decision : checkDecisionTimestamp w.intent.intent = .ok ()
  valid : validateNewExecutionWorkflow w = .ok ()
  risk : validateNewRiskResult w.riskResult w.intent.intent = .ok ()
  plan : validateNewExecutionPlan w.plan w.riskResult
    { intent := w.intent.intent, status := w.intent.initialStatus } = .ok ()

section
variable {P F : Type} [DecidableEq P] [DecidableEq F] [F64 F] {codec : JournalCodec P F}
  {w : NewExecutionWorkflow F} {t t' : WorkflowTables P F}

/-! ## a commit needs room -/

variable {any : Bool}

theorem get_none_of_subset {ρ κ υ : Type} {key : ρ → κ} {index : ρ → Option υ} [DecidableEq κ]
    [DecidableEq υ] {a b : Table key index} {k : κ} (h : a.rows ⊆ b.rows) (hnone : b.get k = none) :
    a.get k = none := by
  refine Option.eq_none_iff_forall_ne_some.mpr fun x hx => ?_
  rw [Table.get_of_subset h hx] at hnone
  cases hnone

theorem fetchRiskResultById_none {riskId : RiskId} (h : t.fetchRiskResultById riskId = .ok none) :
    t.risks.get riskId = none := by
  unfold WorkflowTables.fetchRiskResultById at h
  cases hrow : t.risks.get riskId with
  | none => rfl
  | some row =>
    rw [hrow] at h
    cases hread : riskResultFromRow t row with
    | error e =>
      simp only [hread] at h
      cases h
    | ok read =>
      simp only [hread] at h
      cases h

theorem insertRiskResult_first {result : RiskResult F}
    (hnew : ∀ row ∈ t.risks.rows, row.intentId ≠ result.intentId)
    (h : insertRiskResult result t = (.ok any, t')) :
    t.risks.get result.riskId = none ∧ ∃ risks, t' = { t with risks } := by
  simp only [insertRiskResult, Script.bind_run, Script.query_run] at h
  obtain ⟨_, t₁, ⟨-, hs₁⟩, existing, t₂, ⟨hfetch, hs₂⟩, h⟩ := h
  rw [hs₁] at hfetch hs₂
  cases existing with
  | none =>
    simp only [Script.bind_run, Script.query_run, Script.write_run, bind_ok, need_ok, pure_ok,
      Prod.mk.injEq] at h
    obtain ⟨_, t₃, ⟨-, hs₃⟩, risks, -, -, rfl⟩ := h
    rw [hs₃, hs₂]
    exact ⟨fetchRiskResultById_none hfetch, risks, rfl⟩
  | some existing =>
    simp only [Script.bind_run, Script.query_run, reject_ok, not_not, ne_eq] at h
    obtain ⟨_, _, ⟨rfl, -⟩, -⟩ := h
    have hrow := Table.get_eq_some.mp (fetchRiskResultById_row hfetch)
    exact absurd rfl (hnew _ hrow.1)

theorem insertExecutionPlan_ok {new : NewExecutionPlan F}
    (h : insertExecutionPlan codec new t = (.ok any, t')) :
    (∃ row, t.plans.get new.planId = some row ∧ row.riskId = new.riskId) ∨
      t.plans.get new.planId = none ∧ ∃ payload, insertPlanRows codec new payload t = (.ok any, t') := by
  simp only [insertExecutionPlan, Script.bind_run, Script.query_run] at h
  obtain ⟨_, t₁, ⟨-, hs₁⟩, payload, t₂, ⟨-, hs₂⟩, existing, t₃, ⟨hfetch, hs₃⟩, h⟩ := h
  rw [hs₃, hs₂, hs₁] at h
  rw [hs₂, hs₁] at hfetch
  have hget : t.plans.get new.planId = t.lifecycle.plans.find? fun row => row.planId == new.planId :=
    rfl
  cases existing with
  | none =>
    refine .inr ⟨?_, payload, h⟩
    unfold fetchExecutionPlanById at hfetch
    cases hfound : t.lifecycle.plans.find? fun row => row.planId == new.planId with
    | none => exact hget.trans hfound
    | some row =>
      simp only [hfound, bind_ok, pure_ok, reduceCtorEq, and_false, exists_false] at hfetch
  | some existing =>
    simp only [Script.bind_run, Script.query_run, reject_ok] at h
    obtain ⟨_, _, ⟨hsame, -⟩, -⟩ := h
    obtain ⟨row, hfound, hread⟩ := fetchExecutionPlanById_ok.mp hfetch
    obtain ⟨journal, _, _, hdecodes, rfl⟩ := executionPlanFromRow_ok.mp hread
    have hcolumns := hdecodes.columns
    simp only [validatePlanColumns, validateColumn, bind_ok, exists_unit, reject_ok, not_not,
      ne_eq] at hcolumns
    simp only [sameExecutionPlan, Bool.not_eq_false, Bool.and_eq_true, beq_iff_eq] at hsame
    exact .inl ⟨row, hget.trans hfound, hcolumns.1.trans hsame.1.1.1⟩

theorem insertPlanRows_legs {new : NewExecutionPlan F} {payload : P}
    (h : insertPlanRows codec new payload t = (.ok any, t')) :
    ∀ leg ∈ new.plan.legs, t.legs.get leg.definition.legId = none := by
  simp only [insertPlanRows, Script.bind_run] at h
  obtain ⟨_, t₁, hplan, _, t₂, hlegs, -⟩ := h
  have hext : Extends t t₁ := by
    simp only [Script.write_run, bind_ok, need_ok, pure_ok, Prod.mk.injEq] at hplan
    obtain ⟨plans, hinsert, -, rfl⟩ := hplan
    exact { Extends.refl t with plans := Table.insert_extends hinsert }
  intro leg hleg
  obtain ⟨u, v, hrun, htu⟩ := Script.forEach_each Extends.refl Extends.trans
    (insertExecutionLeg_extends codec new) hlegs leg hleg
  simp only [insertExecutionLeg, Script.write_run, bind_ok, need_ok, pure_ok, Prod.mk.injEq] at hrun
  obtain ⟨_, -, legs, hinsert, -⟩ := hrun
  exact get_none_of_subset (hext.trans htu).legs.subset (Table.insert_fresh hinsert)

theorem insertExecutionCommand_ok {new : NewExecutionCommand F} {row : CommandRow F}
    (h : insertExecutionCommand new t = (.ok any, t')) (hrow : row ∈ t.commands.rows)
    (hclash : row.command.commandId = new.command.commandId ∨
      row.command.idempotencyKey = new.command.idempotencyKey) : row.command = new.command := by
  rw [insertExecutionCommand, Script.write_run] at h
  cases hinsert : t.commands.insert new.row with
  | some commands =>
    have hfresh := Table.insert_fresh hinsert
    rcases hclash with hid | hkey
    · have hget : t.commands.get new.row.command.commandId = some row :=
        Table.get_eq_some.mpr ⟨hrow, hid⟩
      rw [hget] at hfresh
      cases hfresh
    · have hold : commands.seek new.command.idempotencyKey = some row :=
        Table.seek_insert_of_some hinsert (Table.seek_eq_some.mpr ⟨hrow, congrArg some hkey⟩)
      have hnew : commands.seek new.command.idempotencyKey = some new.row :=
        Table.seek_eq_some.mpr ⟨(Table.get_eq_some.mp ((Table.get_insert hinsert _).trans
          (if_pos rfl))).1, rfl⟩
      rw [hold] at hnew
      rw [Option.some.inj hnew]
      rfl
  | none =>
    have hmem : row ∈ commandConflicts t new.command := by
      refine List.mem_filter.mpr ⟨hrow, ?_⟩
      simp only [Bool.or_eq_true, beq_iff_eq]
      exact hclash
    simp only [hinsert] at h
    split at h
    · rename_i existing hconflicts
      rw [hconflicts, List.mem_singleton] at hmem
      split at h
      · rename_i hsame
        rw [hmem]
        exact hsame.2
      · cases h
    · cases h

theorem room_of_commit {out : WriteOutcome (StoredExecutionWorkflow P F)} (hkeys : ForeignKeys t)
    (hnew : ∀ row ∈ t.risks.rows, row.intentId ≠ w.riskResult.intentId)
    (h : commitExecutionWorkflowOn codec w t = (.ok out, t')) : Room w t := by
  obtain ⟨stored, c, -⟩ := commitExecutionWorkflowOn_ok.mp h
  have hw := validateNewExecutionWorkflow_shape c.valid
  obtain ⟨hrisk, hplans, hlegs⟩ : t.risks.get w.riskResult.riskId = none ∧
      c.afterRisk.plans = t.plans ∧ c.afterRisk.legs = t.legs := by
    obtain ⟨-, ⟨intents, -, hsame⟩ | hsame⟩ := insertTradeIntent_ok c.ofIntent
    all_goals
      have hnew' : ∀ row ∈ c.afterIntent.risks.rows, row.intentId ≠ w.riskResult.intentId := by
        rw [hsame]
        exact hnew
      have hfirst := insertRiskResult_first hnew' c.ofRisk
      rw [hsame] at hfirst
      obtain ⟨hrisk, risks, hsame'⟩ := hfirst
      rw [hsame']
      exact ⟨hrisk, rfl, rfl⟩
  have hbefore : Extends t c.afterPlan :=
    (insertTradeIntent_extends _ _ _ _ c.ofIntent).trans
      ((insertRiskResult_extends _ _ _ _ c.ofRisk).trans
        (insertExecutionPlan_extends codec _ _ _ _ c.ofPlan))
  have hplan := insertExecutionPlan_ok c.ofPlan
  rw [hplans] at hplan
  rcases hplan with ⟨row, hrow, hsame⟩ | ⟨hplan, payload, hrun⟩
  · -- a plan of the same approval stands for a row of the approval
    refine absurd ?_ (hkeys.plan row (Table.get_eq_some.mp hrow).1)
    rw [hsame, hw.riskId]
    exact hrisk
  · have hnolegs := insertPlanRows_legs hrun
    rw [hlegs] at hnolegs
    have hfree : ∀ c' ∈ w.commands, ∀ row ∈ t.commands.rows,
        ¬ (row.command.commandId = c'.command.commandId ∨
          row.command.idempotencyKey = c'.command.idempotencyKey) := by
      intro c' hc' row hrow hclash
      obtain ⟨u, any, v, hinsert, htu, -⟩ := Script.anyOf_each Extends.refl Extends.trans
        insertExecutionCommand_extends c.ofCommands c' hc'
      have hsame := insertExecutionCommand_ok hinsert
        ((hbefore.trans htu).commands.subset hrow) hclash
      refine hkeys.command row hrow w.plan.planId ?_ hplan
      rw [hsame]
      exact hw.planIds c' hc'
    refine ⟨hrisk, hplan, hnolegs, fun c' hc' => ⟨?_, ?_⟩⟩
    · refine Option.eq_none_iff_forall_ne_some.mpr fun row hrow => ?_
      obtain ⟨hmem, hid⟩ := Table.get_eq_some.mp hrow
      exact hfree c' hc' row hmem (.inl hid)
    · refine Option.eq_none_iff_forall_ne_some.mpr fun row hrow => ?_
      obtain ⟨hmem, hkey⟩ := Table.seek_eq_some.mp hrow
      exact hfree c' hc' row hmem (.inr (Option.some.inj hkey))

/-! ## a new plan is read back -/

/-- the row that is written for a leg, and the leg it decodes to -/
def NewExecutionPlan.legRow (new : NewExecutionPlan F) (payloadOf : ExecutionLegDefinition F → P)
    (leg : ExecutionLeg F) : LegRow P where
  legId := leg.definition.legId
  planId := new.planId
  symbol := leg.definition.symbol
  action := leg.definition.action
  status := leg.state.status
  payload := payloadOf leg.definition
  updatedAt := new.recordedAt

def NewExecutionPlan.storedLeg (new : NewExecutionPlan F) (payloadOf : ExecutionLegDefinition F → P)
    (leg : ExecutionLeg F) : StoredExecutionLeg P F :=
  ⟨new.planId, leg, payloadOf leg.definition, new.recordedAt⟩

variable {payloadOf : ExecutionLegDefinition F → P} {new : NewExecutionPlan F}
  {risk : RiskResult F} {intent : StoredTradeIntent F} {payload : P}

theorem matchJournalLegs_new (hleg : ∀ d, codec.canonical d = some (payloadOf d)) {key : String}
    {legs : List (ExecutionLeg F)} (hdistinct : (legIds legs).Nodup) :
    matchJournalLegs codec.toPayloadCodec key (legs.map (new.storedLeg payloadOf))
      (legs.map ExecutionLeg.definition) = .ok legs := by
  induction legs with
  | nil => rfl
  | cons leg legs ih =>
    obtain ⟨hfresh, hdistinct⟩ : leg.definition.legId ∉ legIds legs ∧ (legIds legs).Nodup :=
      List.nodup_cons.mp hdistinct
    -- the first stored leg is the one that is looked for, and it is taken out
    have hhead : (new.storedLeg payloadOf leg).legId = leg.definition.legId := rfl
    have hothers : (legs.map (new.storedLeg payloadOf)).filter
        (fun s => s.legId != leg.definition.legId) = legs.map (new.storedLeg payloadOf) := by
      refine List.filter_eq_self.mpr fun s hs => ?_
      obtain ⟨other, hother, rfl⟩ := List.mem_map.mp hs
      rw [bne_iff_ne]
      intro hsame
      exact hfresh (List.mem_map.mpr ⟨other, hother, hsame⟩)
    simp only [List.map_cons, matchJournalLegs, bind_ok, exists_unit, need_ok, reject_ok, pure_ok,
      not_not, ne_eq, List.find?_cons, List.filter_cons, hhead, beq_self_eq_true, bne_self_eq_false,
      Bool.false_eq_true, if_false, hothers]
    exact ⟨_, rfl, _, hleg _, rfl, legs, ih hdistinct, rfl⟩

/-- the tables in which a new plan lies with its legs and its parents -/
structure NewPlan (codec : JournalCodec P F) (payloadOf : ExecutionLegDefinition F → P)
    (new : NewExecutionPlan F) (risk : RiskResult F) (intent : StoredTradeIntent F) (payload : P)
    (t : WorkflowTables P F) : Prop where
  row : t.plans.get new.planId = some (new.row payload)
  written : codec.plan payload = some new.journal
  legs : planLegRows t.lifecycle new.planId = new.plan.legs.map (new.legRow payloadOf)
  risk : t.fetchRiskResultById new.riskId = .ok (some risk)
  intent : t.fetchTradeIntentById new.intentId = .ok (some intent)

theorem newPlan_distinct (h : validateNewExecutionPlan new risk intent = .ok ()) :
    (legIds new.plan.legs).Nodup := by
  simp only [validateNewExecutionPlan, bind_ok, exists_unit, invalidRecordOf_ok] at h
  rw [legIds_definition]
  exact (ExecutionPlan.validate_ok.mp h.1).1.distinct

theorem planFromLegs_pending {plan : ExecutionPlan F} (hfilled : plan.state.filledLegs = [])
    (hfailed : plan.state.failedLegs = []) (hlegs : ∀ leg ∈ plan.legs, leg.state.status = .pending) :
    planFromLegs plan.definition plan.state.status plan.legs = plan := by
  have hnone : ∀ p : ExecutionLegStatus → Bool, p .pending = false → summaryOf p plan.legs = [] := by
    intro p hp
    refine List.map_eq_nil_iff.mpr (List.filter_eq_nil_iff.mpr fun leg hleg => ?_)
    rw [hlegs leg hleg, hp]
    exact Bool.false_ne_true
  unfold planFromLegs
  rw [hnone _ rfl, hnone _ rfl]
  obtain ⟨definition, legs, ⟨status, filledLegs, failedLegs⟩⟩ := plan
  obtain rfl : filledLegs = [] := hfilled
  obtain rfl : failedLegs = [] := hfailed
  rfl

theorem NewPlan.stored
    (hleg : ∀ d, codec.canonical d = some (payloadOf d) ∧ codec.leg (payloadOf d) = some d)
    (h : NewPlan codec payloadOf new risk intent payload t)
    (hvalid : validateNewExecutionPlan new risk intent = .ok ()) :
    fetchExecutionPlanById codec.toPayloadCodec t.lifecycle new.planId =
      .ok (some ⟨new.plan, new.riskId, new.intentId, payload, new.recordedAt, new.recordedAt⟩) := by
  have hdistinct := newPlan_distinct hvalid
  simp only [validateNewExecutionPlan, bind_ok, exists_unit, invalidRecordOf_ok, reject_ok, not_lt,
    not_or, not_not, ne_eq, not_exists, not_and] at hvalid
  obtain ⟨hplan, hrecorded, ⟨-, hfilled, hfailed, hpending⟩, hgraph⟩ := hvalid
  obtain ⟨hwf, -⟩ := ExecutionPlan.validate_ok.mp hplan
  have hsame := planFromLegs_pending hfilled hfailed hpending
  have hdecoded : ∀ leg ∈ new.plan.legs, planLegFromRow codec.toPayloadCodec new.recordedAt
      (new.legRow payloadOf leg) = .ok (new.storedLeg payloadOf leg) := fun leg hmem =>
    planLegFromRow_ok.mpr ⟨⟨(hleg _).2, ⟨rfl, rfl, rfl⟩, hrecorded,
      hwf.eachLeg leg.definition (List.mem_map_of_mem hmem), rfl⟩, le_refl _⟩
  have hapart : (new.plan.legs.map (new.storedLeg payloadOf)).Pairwise
      fun x y => sameLegId x y = false := by
    refine List.pairwise_map.mpr ((List.pairwise_map.mp hdistinct).imp fun hne => ?_)
    exact beq_false_of_ne hne
  refine fetchExecutionPlanById_ok.mpr ⟨new.row payload, h.row, executionPlanFromRow_ok.mpr
    ⟨new.journal, new.plan.legs.map (new.storedLeg payloadOf), new.plan.legs,
      ⟨h.written, ?_, hrecorded, le_refl _, ?_, ?_, ?_, ?_, ?_⟩, ?_⟩⟩
  · simp only [validatePlanColumns, validateColumn, bind_ok, exists_unit, reject_ok, not_not, ne_eq]
    exact ⟨rfl, rfl, rfl, rfl, rfl, rfl, rfl⟩
  · show collectApart _ _ _ [] (planLegRows t.lifecycle new.planId) = _
    rw [h.legs]
    refine collectApart_returns ?_ hapart
    rw [List.forall₂_map_left_iff, List.forall₂_map_right_iff, List.forall₂_same]
    exact hdecoded
  · rw [List.length_map]
    exact (List.length_map _).symm
  · exact matchJournalLegs_new (fun d => (hleg d).1) hdistinct
  · rw [← hsame] at hplan
    exact hplan
  · have hread : validateExecutionPlanGraph (planFromLegs new.journal.definition
        (new.row payload).status new.plan.legs) new.journal.riskId new.journal.intentId
        (new.row payload).createdAt risk intent = .ok () := by
      rw [← hsame] at hgraph
      exact hgraph
    simp only [validatePlanParents, bind_ok, need_ok]
    refine ⟨_, h.risk, risk, rfl, _, h.intent, intent, rfl, ?_⟩
    simp only [hread]
  · rw [← hsame]
    rfl

/-! ## every insert writes its row -/

variable {commands : List (NewExecutionCommand F)}

theorem insertRiskResult_fresh {result : RiskResult F} (hvalid : result.validate = .ok ())
    (hidentity : validateRiskResultIntentIdentity t result = .ok ())
    (hroom : t.risks.get result.riskId = none) :
    ∃ risks : RiskTable F, insertRiskResult result t = (.ok true, { t with risks }) ∧
      risks.rows = t.risks.rows ++ [result] := by
  obtain ⟨risks, hinsert⟩ := Table.insert_free hroom fun _ h => (by cases h)
  have hfetch : t.fetchRiskResultById result.riskId = .ok none := by
    unfold WorkflowTables.fetchRiskResultById
    rw [hroom]
  refine ⟨risks, ?_, Table.ofRows_rows hinsert⟩
  simp only [insertRiskResult, Script.bind_run, Script.query_run]
  refine ⟨(), t, ⟨invalidRecordOf_ok.mpr hvalid, rfl⟩, none, t, ⟨hfetch, rfl⟩, ?_⟩
  simp only [Script.bind_run, Script.query_run, Script.write_run, bind_ok, need_ok, pure_ok]
  exact ⟨(), t, ⟨hidentity, rfl⟩, risks, hinsert, rfl⟩

theorem insertExecutionLegs_fresh
    (hleg : ∀ d, codec.canonical d = some (payloadOf d) ∧ codec.leg (payloadOf d) = some d)
    (hdistinct : (legIds new.plan.legs).Nodup)
    (hroom : ∀ leg ∈ new.plan.legs, t.legs.get leg.definition.legId = none) :
    ∃ legs : LegTable P,
      Script.forEach (insertExecutionLeg codec new) new.plan.legs t = (.ok (), { t with legs }) ∧
        legs.rows = t.legs.rows ++ new.plan.legs.map (new.legRow payloadOf) := by
  obtain ⟨all, hall⟩ : ∃ all : LegTable P,
      all.rows = t.legs.rows ++ new.plan.legs.map (new.legRow payloadOf) := by
    refine Table.extend _ (fun row hrow => ?_) ?_ (fun row _ u hu => (by cases hu)) ?_
    · obtain ⟨leg, hmem, rfl⟩ := List.mem_map.mp hrow
      exact hroom leg hmem
    · rw [List.map_map]
      exact hdistinct
    · rw [List.filterMap_map]
      exact (List.filterMap_none _).symm ▸ List.nodup_nil
  have hstep : ∀ seen leg rest u, new.plan.legs = seen ++ leg :: rest →
      (∃ legs : LegTable P, u = { t with legs } ∧
        legs.rows = t.legs.rows ++ seen.map (new.legRow payloadOf)) →
      ∃ v, insertExecutionLeg codec new leg u = (.ok (), v) ∧ ∃ legs : LegTable P,
        v = { t with legs } ∧ legs.rows = t.legs.rows ++ (seen ++ [leg]).map (new.legRow payloadOf) := by
    rintro seen leg rest u hsplit ⟨legs, rfl, hlegs⟩
    obtain ⟨next, hinsert, hnext⟩ := Table.insert_next hall hsplit hlegs
    refine ⟨{ t with legs := next }, ?_, next, rfl, hnext⟩
    rw [insertExecutionLeg, Script.write_run]
    simp only [bind_ok, need_ok, pure_ok, Prod.mk.injEq, true_and]
    exact ⟨_, (hleg _).1, next, hinsert, rfl⟩
  obtain ⟨u, hrun, legs, rfl, hlegs⟩ := Script.forEach_builds _ new.plan.legs
    ⟨t.legs, rfl, (List.append_nil _).symm⟩ hstep
  exact ⟨legs, hrun, hlegs⟩

theorem insertExecutionPlan_fresh (hcodec : codec.Lawful)
    (hfree : ∀ row ∈ t.legs.rows, row.planId ≠ new.planId)
    (hvalid : validateNewExecutionPlan new risk intent = .ok ())
    (hrisk : t.fetchRiskResultById new.riskId = .ok (some risk))
    (hintent : t.fetchTradeIntentById new.intentId = .ok (some intent))
    (hplan : t.plans.get new.planId = none)
    (hlegs : ∀ leg ∈ new.plan.legs, t.legs.get leg.definition.legId = none) :
    ∃ (plans : PlanTable P) (legs : LegTable P) (payload : P),
      insertExecutionPlan codec new t = (.ok true, { t with plans, legs }) ∧
        plans.rows = t.plans.rows ++ [new.row payload] ∧ codec.journal new.journal = .ok payload ∧
        fetchExecutionPlanById codec.toPayloadCodec { t with plans, legs }.lifecycle new.planId =
          .ok (some ⟨new.plan, new.riskId, new.intentId, payload, new.recordedAt, new.recordedAt⟩) := by
  choose payloadOf hleg using hcodec.leg
  obtain ⟨payload, hwritten, hread⟩ := hcodec.plan new.journal
  obtain ⟨plans, hinsert⟩ := Table.insert_free (r := new.row payload) hplan fun _ h => (by cases h)
  obtain ⟨legs, hrun, hrows⟩ := insertExecutionLegs_fresh (t := { t with plans }) hleg
    (newPlan_distinct hvalid) hlegs
  -- the legs of the plan are the new ones: an older one would stand for a row of the plan
  have hown : planLegRows { t with plans, legs }.lifecycle new.planId =
      new.plan.legs.map (new.legRow payloadOf) := by
    show legs.rows.filter _ = _
    rw [hrows, List.filter_append, List.filter_eq_nil_iff.mpr, List.nil_append,
      List.filter_eq_self.mpr]
    · intro row hrow
      obtain ⟨leg, -, rfl⟩ := List.mem_map.mp hrow
      exact beq_iff_eq.mpr rfl
    · intro row hrow hsame
      exact hfree row hrow (beq_iff_eq.mp hsame)
  have hnew : NewPlan codec payloadOf new risk intent payload { t with plans, legs } :=
    ⟨(Table.get_insert hinsert _).trans (if_pos rfl), hread, hown, hrisk, hintent⟩
  have hstored := hnew.stored hleg hvalid
  refine ⟨plans, legs, payload, ?_, Table.ofRows_rows hinsert, hwritten, hstored⟩
  have hfetch : fetchExecutionPlanById codec.toPayloadCodec t.lifecycle new.planId = .ok none := by
    have hfound : (t.lifecycle.plans.find? fun row => row.planId == new.planId) = none := hplan
    unfold fetchExecutionPlanById
    rw [hfound]
  have hparents : validateExecutionPlanParents t new = .ok () := by
    simp only [validateExecutionPlanParents, bind_ok, need_ok]
    exact ⟨_, hrisk, risk, rfl, _, hintent, intent, rfl, hvalid⟩
  have hwrite : (Script.write fun t : WorkflowTables P F => do
      let plans ← need (t.plans.insert (new.row payload)) (planConflict new.planId)
      return ((), { t with plans })) t = (.ok (), { t with plans }) := by
    rw [Script.write_run]
    simp only [bind_ok, need_ok, pure_ok]
    exact ⟨plans, hinsert, rfl⟩
  unfold insertExecutionPlan
  rw [Script.query_success (s := t) hparents, Script.query_success (s := t) hwritten,
    Script.query_success (s := t) hfetch]
  show insertPlanRows codec new payload t = _
  unfold insertPlanRows
  rw [Script.bind_success hwrite, Script.bind_success hrun]
  simp only [Script.bind_run, Script.query_run, Script.pure_run]
  exact ⟨_, _, ⟨hstored, rfl⟩, (), _, ⟨reject_ok.mpr Bool.false_ne_true, rfl⟩, trivial, rfl⟩

theorem anyOf_inserts {σ ρ κ υ γ : Type} [DecidableEq κ] [DecidableEq υ] {key : ρ → κ}
    {index : ρ → Option υ} (f : γ → Script σ StoreError Bool) (set : Table key index → σ)
    {base all : Table key index} {row : γ → ρ} {xs : List γ}
    (hall : all.rows = base.rows ++ xs.map row)
    (hstep : ∀ x ∈ xs, ∀ cur next : Table key index, cur.insert (row x) = some next →
      f x (set cur) = (.ok true, set next)) :
    ∃ any next, Script.anyOf f xs (set base) = (.ok any, set next) ∧ next.rows = all.rows := by
  have hloop : ∀ seen x rest u, xs = seen ++ x :: rest →
      (∃ cur : Table key index, u = set cur ∧ cur.rows = base.rows ++ seen.map row) →
      ∃ any v, f x u = (.ok any, v) ∧ ∃ next : Table key index, v = set next ∧
        next.rows = base.rows ++ (seen ++ [x]).map row := by
    rintro seen x rest u hsplit ⟨cur, rfl, hcur⟩
    obtain ⟨next, hinsert, hnext⟩ := Table.insert_next hall hsplit hcur
    have hx : x ∈ xs := hsplit ▸ List.mem_append_right _ List.mem_cons_self
    exact ⟨true, set next, hstep x hx cur next hinsert, next, rfl, hnext⟩
  obtain ⟨any, v, hrun, next, rfl, hnext⟩ := Script.anyOf_builds _ xs
    ⟨base, rfl, (List.append_nil _).symm⟩ hloop
  exact ⟨any, next, hrun, hnext.trans hall.symm⟩

theorem insertExecutionCommands_fresh (hapart : commands.Pairwise NewExecutionCommand.Apart)
    (hroom : ∀ c ∈ commands, t.commands.get c.command.commandId = none ∧
      t.commands.seek c.command.idempotencyKey = none) :
    ∃ any, ∃ table : CommandTable F,
      Script.anyOf insertExecutionCommand commands t = (.ok any, { t with commands := table }) ∧
        table.rows = t.commands.rows ++ commands.map NewExecutionCommand.row := by
  obtain ⟨all, hall⟩ : ∃ all : CommandTable F,
      all.rows = t.commands.rows ++ commands.map NewExecutionCommand.row := by
    refine Table.extend _ (fun row hrow => ?_) ?_ (fun row hrow u hu => ?_) ?_
    · obtain ⟨c, hc, rfl⟩ := List.mem_map.mp hrow
      exact (hroom c hc).1
    · rw [List.map_map]
      exact List.pairwise_map.mpr (hapart.imp And.left)
    · obtain ⟨c, hc, rfl⟩ := List.mem_map.mp hrow
      cases hu
      exact (hroom c hc).2
    · rw [List.filterMap_map]
      show (commands.filterMap (some ∘ fun c => c.command.idempotencyKey)).Nodup
      rw [List.filterMap_eq_map]
      exact List.pairwise_map.mpr (hapart.imp fun h => h.2.1)
  obtain ⟨any, table, hrun, htable⟩ := anyOf_inserts insertExecutionCommand
    (fun commands => { t with commands }) hall (by
      intro c _ cur next hinsert
      rw [insertExecutionCommand, Script.write_run]
      simp only [hinsert])
  exact ⟨any, table, hrun, htable.trans hall⟩

theorem insertExecutionCommandStates_fresh {states : List ExecutionCommandState}
    (hdistinct : (states.map ExecutionCommandState.commandId).Nodup)
    (hidentity : ∀ s ∈ states, validateCommandStateIdentity t s = .ok ())
    (hroom : ∀ s ∈ states, t.states.get s.commandId = none) :
    ∃ any, ∃ table : StateTable,
      Script.anyOf insertExecutionCommandState states t = (.ok any, { t with states := table }) ∧
        table.rows = t.states.rows ++ states := by
  obtain ⟨all, hall⟩ : ∃ all : StateTable, all.rows = t.states.rows ++ states.map id := by
    rw [List.map_id]
    refine Table.extend _ hroom hdistinct (fun row _ u hu => (by cases hu)) ?_
    exact (List.filterMap_none _).symm ▸ List.nodup_nil
  obtain ⟨any, table, hrun, htable⟩ := anyOf_inserts insertExecutionCommandState
    (fun states => { t with states }) hall (by
      intro s hs cur next hinsert
      have hinsert' : cur.insert s = some next := hinsert
      simp only [insertExecutionCommandState, Script.bind_run, Script.query_run, Script.write_run]
      refine ⟨(), _, ⟨hidentity s hs, rfl⟩, ?_⟩
      simp only [hinsert'])
  rw [List.map_id] at hall
  exact ⟨any, table, hrun, htable.trans hall⟩

/-! ## the workflow is read back -/

/-- the checks of the commands and their states, row by row -/
structure RowsChecked (w : NewExecutionWorkflow F) : Prop where
  graph : ∀ c ∈ w.commands, validateNewExecutionCommandGraph w c = .ok ()
  apart : w.commands.Pairwise NewExecutionCommand.Apart
  legs : ∀ leg ∈ w.plan.plan.legs, ∃ c ∈ w.commands, c.command.legId = some leg.definition.legId
  stateIds : (w.commandStates.map ExecutionCommandState.commandId).Nodup
  stateCount : w.commandStates.length = w.commands.length
  states : ∀ c ∈ w.commands, ∃ s ∈ w.commandStates, s.commandId = c.command.commandId ∧
    validateInitialCommandState s c = .ok ()

theorem validateNewExecutionWorkflow_rows (h : validateNewExecutionWorkflow w = .ok ()) :
    RowsChecked w := by
  simp only [validateNewExecutionWorkflow, invalidRecordOf_ok, validateWorkflowGraph,
    validateWorkflowRows, bind_ok, exists_unit, reject_ok, each_ok, need_ok, eachApart_key_ok, not_or,
    not_not, ne_eq, validateNewCommands_ok] at h
  obtain ⟨-, -, -, ⟨hgraph, hapart⟩, ⟨-, hlegs⟩, ⟨hids, -⟩, hcount, hstates⟩ := h
  refine ⟨fun c hc => (hgraph c hc).1, hapart, fun leg hleg => ?_, hids, hcount, fun c hc => ?_⟩
  · rw [Bool.not_eq_true, List.any_eq_false] at hlegs
    have hcommand := hlegs leg hleg
    rw [Bool.not_eq_true, Bool.not_eq_false', List.any_eq_true] at hcommand
    obtain ⟨c, hc, hsame⟩ := hcommand
    exact ⟨c, hc, beq_iff_eq.mp hsame⟩
  · obtain ⟨s, hfound, hinitial⟩ := hstates c hc
    obtain ⟨hs, hid⟩ := find_key hfound
    exact ⟨s, hs, hid, hinitial⟩

theorem RowsChecked.owner (h : RowsChecked w) {s : ExecutionCommandState}
    (hs : s ∈ w.commandStates) : ∃ c ∈ w.commands, s.commandId = c.command.commandId ∧
      validateInitialCommandState s c = .ok () := by
  have hids : (w.commands.map fun c => c.command.commandId).Nodup :=
    List.pairwise_map.mpr (h.apart.imp And.left)
  have hsubset : (w.commands.map fun c => c.command.commandId) ⊆
      w.commandStates.map ExecutionCommandState.commandId := by
    intro id hid
    obtain ⟨c, hc, rfl⟩ := List.mem_map.mp hid
    obtain ⟨s', hs', hsame, -⟩ := h.states c hc
    exact List.mem_map.mpr ⟨s', hs', hsame⟩
  have hperm := (List.subperm_of_subset hids hsubset).perm_of_length_le (by
    rw [List.length_map, List.length_map, h.stateCount])
  obtain ⟨c, hc, hsame⟩ := List.mem_map.mp (hperm.mem_iff.mpr (List.mem_map_of_mem hs))
  obtain ⟨s', hs', hid, hinitial⟩ := h.states c hc
  obtain rfl := List.inj_on_of_nodup_map h.stateIds hs' hs (hid.trans hsame)
  exact ⟨c, hc, hid, hinitial⟩

theorem collectCommands_new (plan : StoredExecutionPlan P F) (intent : StoredTradeIntent F)
    (seen : List (CommandRow F))
    (hgraph : ∀ c ∈ commands, validateExecutionCommandGraph c.command c.riskId c.createdAt plan.plan
      plan.riskId plan.createdAt risk intent.intent = .ok ())
    (hlegs : ∀ c ∈ commands, c.command.legId.isSome)
    (hseen : ∀ c ∈ commands, ∀ other ∈ seen, other.command.legId ≠ c.command.legId)
    (hapart : commands.Pairwise NewExecutionCommand.Apart) :
    collectCommands plan risk intent seen (commands.map NewExecutionCommand.row) =
      .ok (seen ++ commands.map NewExecutionCommand.row) := by
  induction commands generalizing seen with
  | nil => exact congrArg Except.ok (List.append_nil seen).symm
  | cons c rest ih =>
    rw [List.forall_mem_cons] at hgraph hlegs hseen
    rw [List.pairwise_cons] at hapart
    have hhead : validateExecutionCommandGraph c.row.command c.row.riskId c.row.createdAt plan.plan
        plan.riskId plan.createdAt risk intent.intent = .ok () := hgraph.1
    rw [List.map_cons, List.append_cons]
    unfold collectCommands
    simp only [hhead, bind_ok, exists_unit, reject_ok, Bool.not_eq_true, Option.isNone_eq_false_iff,
      not_exists, not_and]
    refine ⟨hlegs.1, hseen.1, ih _ hgraph.2 hlegs.2 (fun c' hc' other hother => ?_) hapart.2⟩
    rcases List.mem_append.mp hother with hother | hother
    · exact hseen.2 c' hc' other hother
    · rw [List.mem_singleton.mp hother]
      exact (hapart.1 c' hc').2.2

theorem validatePersistedCommandState_initial {s : ExecutionCommandState} {c : NewExecutionCommand F}
    (h : validateInitialCommandState s c = .ok ()) (hcreated : 0 ≤ c.createdAt) :
    validatePersistedCommandState s c.row.toStoredExecutionCommand = .ok () := by
  simp only [validateInitialCommandState, bind_ok, exists_unit, reject_ok, not_or, not_not, ne_eq,
    Bool.not_eq_true, Option.isSome_eq_false_iff, Option.isNone_iff_eq_none] at h
  obtain ⟨⟨hid, haccount, hplan, hleg, hcreatedAt, hupdatedAt⟩, -, -, -, hdispatched, hreceived,
    hreconciling, hcompleted⟩ := h
  refine validatePersistedCommandState_iff.mpr ⟨?_, ⟨hcreatedAt ▸ hcreated, ?_⟩, fun at' hat => ?_⟩
  · simp only [stateIdentity, hid, haccount, hplan, hleg, hcreatedAt]
    rfl
  · rw [hcreatedAt, hupdatedAt]
  · rw [mem_lifecycleTimestamps, hdispatched, hreceived, hreconciling, hcompleted] at hat
    rcases hat with hat | hat | hat | hat
    all_goals cases hat

/-- the tables after the inserts of a workflow -/
structure WorkflowWritten (codec : JournalCodec P F) (w : NewExecutionWorkflow F) (payload : P)
    (t : WorkflowTables P F) : Prop where
  journal : codec.journal w.plan.journal = .ok payload
  plan : fetchExecutionPlanById codec.toPayloadCodec t.lifecycle w.plan.planId = .ok (some
    ⟨w.plan.plan, w.plan.riskId, w.plan.intentId, payload, w.plan.recordedAt, w.plan.recordedAt⟩)
  risk : t.fetchRiskResultById w.plan.riskId = .ok (some w.riskResult)
  intent : t.intents.get w.plan.intentId = some w.intent.row
  commands : planCommands t.commands w.plan.planId = w.commands.map NewExecutionCommand.row
  states : ∀ s ∈ w.commandStates, t.states.get s.commandId = some s

theorem RowsChecked.command (h : RowsChecked w) {c : NewExecutionCommand F} (hc : c ∈ w.commands) :
    c.command.legId.isSome ∧ 0 ≤ c.createdAt ∧
      ∃ leg ∈ w.plan.plan.legs, c.command.legId = some leg.definition.legId := by
  have hcheck := h.graph c hc
  simp only [validateNewExecutionCommandGraph, validateExecutionCommandGraph, bind_ok,
    exists_unit, need_ok, reject_ok, not_or, not_lt] at hcheck
  obtain ⟨_, -, legId, hleg, leg, hfound, -, -, ⟨-, -, hcreated, -⟩, -⟩ := hcheck
  obtain ⟨hmem, hid⟩ := find_key hfound
  exact ⟨hleg ▸ rfl, hcreated, leg, hmem, hleg.trans (congrArg some hid.symm)⟩

theorem RowsChecked.legKeys (h : RowsChecked w) :
    ((w.commands.map NewExecutionCommand.row).map fun row => row.command.legId).Nodup := by
  rw [List.map_map]
  exact List.pairwise_map.mpr (h.apart.imp fun hapart => hapart.2.2)

theorem WorkflowWritten.pairs (hrows : RowsChecked w) {payload : P}
    (h : WorkflowWritten codec w payload t) : ∃ pairs,
      List.Forall₂ (LegRead t.states (planCommands t.commands w.plan.planId)) w.plan.plan.legs
        pairs ∧
      (∀ p ∈ pairs, p.1 ∈ w.commands.map NewExecutionCommand.row ∧ p.2 ∈ w.commandStates) ∧
      ∀ c ∈ w.commands, ∃ p ∈ pairs, p.1 = c.row := by
  have hpair : ∀ leg ∈ w.plan.plan.legs, ∃ p : CommandRow F × ExecutionCommandState,
      LegRead t.states (planCommands t.commands w.plan.planId) leg p ∧
        p.1 ∈ w.commands.map NewExecutionCommand.row ∧ p.2 ∈ w.commandStates := by
    intro leg hleg
    obtain ⟨c, hc, hlegId⟩ := hrows.legs leg hleg
    obtain ⟨s, hs, hid, hinitial⟩ := hrows.states c hc
    have hrow : c.row ∈ w.commands.map NewExecutionCommand.row := List.mem_map_of_mem hc
    refine ⟨(c.row, s), ⟨?_, hid ▸ h.states s hs,
      validatePersistedCommandState_initial hinitial (hrows.command hc).2.1⟩, hrow, hs⟩
    have hself := find_key_self hrows.legKeys hrow
    rw [h.commands, ← hlegId]
    exact hself
  obtain ⟨pairs, hpairs⟩ := exists_forall₂ hpair
  refine ⟨pairs, hpairs.imp fun _ _ hp => hp.1, fun p hp => ?_, fun c hc => ?_⟩
  · obtain ⟨_, -, -, hmem⟩ := forall₂_mem_right hpairs hp
    exact hmem
  · obtain ⟨-, -, leg, hleg, hlegId⟩ := hrows.command hc
    obtain ⟨p, hp, hread, hmem, -⟩ := forall₂_mem_left hpairs hleg
    obtain ⟨-, hsame⟩ := find_key hread.row
    exact ⟨p, hp, List.inj_on_of_nodup_map hrows.legKeys hmem (List.mem_map_of_mem hc)
      (hsame.trans hlegId.symm)⟩

theorem WorkflowWritten.read (hvalid : validateNewExecutionWorkflow w = .ok ()) {payload : P}
    (h : WorkflowWritten codec w payload t) : ∃ stored, readBackWorkflow codec w t = .ok stored := by
  have hw := validateNewExecutionWorkflow_shape hvalid
  have hrows := validateNewExecutionWorkflow_rows hvalid
  obtain ⟨pairs, hread, hmem, hfound⟩ := h.pairs hrows
  have hlength := hread.length_eq
  refine ⟨⟨w.intent.row.toStoredTradeIntent, w.riskResult, _, pairs.map Prod.fst,
    pairs.map Prod.snd⟩, readBackWorkflow_ok.mpr ⟨pairs, w.intent.row, ⟨h.plan, h.risk, ?_, ?_, ?_,
      hread, rfl, rfl⟩, h.intent, ⟨rfl, rfl, h.journal, rfl, rfl, rfl, ?_, ?_, ?_, ?_⟩⟩⟩
  · show t.fetchTradeIntentById w.plan.intentId = _
    unfold WorkflowTables.fetchTradeIntentById
    rw [h.intent]
    rfl
  · show collectCommands _ _ _ _ (planCommands t.commands w.plan.planId) =
      .ok (planCommands t.commands w.plan.planId)
    rw [h.commands]
    exact collectCommands_new _ _ [] hrows.graph (fun c hc => (hrows.command hc).1)
      (fun _ _ _ hother => absurd hother List.not_mem_nil) hrows.apart
  · show (planCommands t.commands w.plan.planId).length = _
    rw [h.commands, List.length_map]
    exact hw.count
  · rw [List.length_map, ← hlength]
    exact hw.count.symm
  · -- a row with the id of a command is the row of that command
    intro c hc
    have hids : ((w.commands.map NewExecutionCommand.row).map fun row =>
        row.command.commandId).Nodup := by
      rw [List.map_map]
      exact List.pairwise_map.mpr (hrows.apart.imp And.left)
    obtain ⟨p, hp, hrow⟩ := hfound c hc
    have hsubset : pairs.map Prod.fst ⊆ w.commands.map NewExecutionCommand.row := by
      rintro row hmap
      obtain ⟨q, hq, rfl⟩ := List.mem_map.mp hmap
      exact (hmem q hq).1
    have hself := find_key_within hids hsubset (hrow ▸ List.mem_map_of_mem hp : c.row ∈ _)
    show ((pairs.map Prod.fst).find? fun row => row.command.commandId == c.command.commandId).any _
      = true
    have hself' : ((pairs.map Prod.fst).find? fun row =>
        row.command.commandId == c.command.commandId) = some c.row := hself
    rw [hself']
    simp only [Option.any_some, NewExecutionCommand.row, beq_self_eq_true, decide_true, Bool.and_self]
  · rw [List.length_map, ← hlength, hrows.stateCount]
    exact hw.count.symm
  · intro s hs
    obtain ⟨c, hc, hid, -⟩ := hrows.owner hs
    obtain ⟨p, hp, hrow⟩ := hfound c hc
    have hstate : p.2 = s := by
      obtain ⟨leg, -, hleg⟩ := forall₂_mem_right hread hp
      have hget := hleg.state
      rw [hrow] at hget
      have hsame : t.states.get c.command.commandId = some s := hid ▸ h.states s hs
      exact Option.some.inj (hget.symm.trans hsame)
    have hsubset : pairs.map Prod.snd ⊆ w.commandStates := by
      rintro state hmap
      obtain ⟨q, hq, rfl⟩ := List.mem_map.mp hmap
      exact (hmem q hq).2
    have hself := find_key_within hrows.stateIds hsubset
      (hstate ▸ List.mem_map_of_mem hp : s ∈ pairs.map Prod.snd)
    unfold replaysState
    rw [hself]
    simp only [Option.any_some, sameCommandStateIdentity_iff.mpr, le_refl, decide_true, Bool.and_self]

/-! ## the commit -/

theorem WorkflowChecked.risk_identity (h : WorkflowChecked w)
    (hintent : t.intents.get w.riskResult.intentId = some w.intent.row) :
    w.riskResult.validate = .ok () ∧
      validateRiskResultIntentIdentity t w.riskResult = .ok () := by
  have hrisk := h.risk
  simp only [validateNewRiskResult, bind_ok, exists_unit, invalidRecordOf_ok] at hrisk
  obtain ⟨hvalid, hsame, hcontract⟩ := hrisk
  refine ⟨hvalid, ?_⟩
  simp only [validateRiskResultIntentIdentity, bind_ok, exists_unit, need_ok, invalidRecordOf_ok]
  refine ⟨some w.intent.row.toStoredTradeIntent, ?_, _, rfl, reject_ok.mpr (reject_ok.mp hsame),
    hcontract⟩
  unfold WorkflowTables.fetchTradeIntentById
  rw [hintent]
  rfl

theorem commit_fresh (hcodec : codec.Lawful) (hw : WorkflowChecked w) (hkeys : ForeignKeys t)
    (hintent : w.intent.row ∈ t.intents.rows) (hroom : Room w t) :
    ∃ stored t', commitExecutionWorkflowOn codec w t = (.ok (.inserted stored), t') := by
  have hshape := validateNewExecutionWorkflow_shape hw.valid
  have hrows := validateNewExecutionWorkflow_rows hw.valid
  have hsame : w.riskResult.intentId = w.intent.intent.intentId := by
    have hgraph := hw.valid
    simp only [validateNewExecutionWorkflow, invalidRecordOf_ok, validateWorkflowGraph, bind_ok,
      exists_unit, reject_ok, not_or, not_not, ne_eq] at hgraph
    exact hgraph.2.2.1.2.2
  have hget : t.intents.get w.intent.intent.intentId = some w.intent.row :=
    Table.get_eq_some.mpr ⟨hintent, rfl⟩
  -- the approval
  obtain ⟨hvalid, hidentity⟩ := hw.risk_identity (hsame ▸ hget)
  obtain ⟨risks, hofRisk, hrisks⟩ := insertRiskResult_fresh hvalid hidentity hroom.risk
  have hrisk : { t with risks }.fetchRiskResultById w.plan.riskId = .ok (some w.riskResult) := by
    have hrow : risks.get w.riskResult.riskId = some w.riskResult := by
      refine Table.get_eq_some.mpr ⟨?_, rfl⟩
      rw [hrisks]
      exact List.mem_append_right _ (List.mem_singleton.mpr rfl)
    have hread : riskResultFromRow { t with risks } w.riskResult = .ok w.riskResult :=
      riskResultFromRow_inserted hvalid hidentity
    unfold WorkflowTables.fetchRiskResultById
    rw [hshape.riskId, hrow]
    simp only [hread]
    rfl
  have hstored : { t with risks }.fetchTradeIntentById w.plan.intentId =
      .ok (some { intent := w.intent.intent, status := w.intent.initialStatus }) := by
    unfold WorkflowTables.fetchTradeIntentById
    rw [hshape.intentId]
    show Except.ok ((t.intents.get w.intent.intent.intentId).map _) = _
    rw [hget]
    rfl
  -- the plan with its legs
  have hnoleg : ∀ row ∈ t.legs.rows, row.planId ≠ w.plan.planId := by
    intro row hrow heq
    exact hkeys.leg row hrow (heq ▸ hroom.plan)
  obtain ⟨plans, legs, payload, hofPlan, -, hjournal, hplan⟩ :=
    insertExecutionPlan_fresh (t := { t with risks }) hcodec hnoleg hw.plan hrisk hstored hroom.plan
      hroom.legs
  -- the commands
  obtain ⟨anyCommand, commands, hofCommands, hcommands⟩ :=
    insertExecutionCommands_fresh (t := { t with risks, plans, legs }) hrows.apart hroom.commands
  have hcommand : ∀ c ∈ w.commands, commands.get c.command.commandId = some c.row := by
    intro c hc
    refine Table.get_eq_some.mpr ⟨?_, rfl⟩
    rw [hcommands]
    exact List.mem_append_right _ (List.mem_map_of_mem hc)
  -- their states
  have hstateIdentity : ∀ s ∈ w.commandStates,
      validateCommandStateIdentity { t with risks, plans, legs, commands } s = .ok () := by
    intro s hs
    obtain ⟨c, hc, hid, hinitial⟩ := hrows.owner hs
    simp only [validateInitialCommandState, bind_ok, exists_unit, reject_ok, not_or, not_not,
      ne_eq] at hinitial
    obtain ⟨⟨-, haccount, hplanId, hleg, hcreated, -⟩, -⟩ := hinitial
    simp only [validateCommandStateIdentity, bind_ok, need_ok, reject_ok, not_or, not_not, ne_eq]
    refine ⟨c.row, hid ▸ hcommand c hc, haccount.symm, hplanId.symm, hleg.symm, hcreated.symm⟩
  have hnostate : ∀ s ∈ w.commandStates, t.states.get s.commandId = none := by
    intro s hs
    obtain ⟨c, hc, hid, -⟩ := hrows.owner hs
    refine Option.eq_none_iff_forall_ne_some.mpr fun row hrow => ?_
    obtain ⟨hmem, hkey⟩ := Table.get_eq_some.mp hrow
    refine hkeys.state row hmem ?_
    rw [hkey, hid]
    exact (hroom.commands c hc).1
  obtain ⟨anyState, states, hofStates, hstates⟩ := insertExecutionCommandStates_fresh
    (t := { t with risks, plans, legs, commands }) hrows.stateIds hstateIdentity hnostate
  have hwritten : WorkflowWritten codec w payload { t with risks, plans, legs, commands, states } := by
    refine ⟨hjournal, hplan, hrisk, ?_, ?_, fun s hs => ?_⟩
    · exact hshape.intentId ▸ hget
    · -- an older command of the plan would stand for a row of the plan
      show commands.rows.filter _ = _
      rw [hcommands, List.filter_append, List.filter_eq_nil_iff.mpr, List.nil_append,
        List.filter_eq_self.mpr]
      · intro row hrow
        obtain ⟨c, hc, rfl⟩ := List.mem_map.mp hrow
        exact beq_iff_eq.mpr (hshape.planIds c hc)
      · intro row hrow heq
        exact hkeys.command row hrow _ (beq_iff_eq.mp heq) hroom.plan
    · refine Table.get_eq_some.mpr ⟨?_, rfl⟩
      rw [hstates]
      exact List.mem_append_right _ hs
  obtain ⟨stored, hread⟩ := hwritten.read hw.valid
  refine ⟨stored, _, commitExecutionWorkflowOn_ok.mpr ⟨stored, ⟨_, _, _, _, _, _, _, _, _, hw.valid,
    insertTradeIntent_idle hw.decision hintent, hofRisk, hofPlan, hofCommands, hofStates, hread⟩, ?_⟩⟩
  simp only [Bool.or_true, Bool.true_or, if_true]

end

end Sinan.Store
