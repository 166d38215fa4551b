import Sinan.Execution.Totality
import Sinan.Store.Restate

/-!
# Store and projector

Along any run of projections that are written with `persistPlanProjection` the plan stays readable.
A projection is read back as it was projected exactly when no leg of it is PARTIALLY_FILLED: the
projector and the validation of a plan count such a leg among `filled_legs`, the decoder of a plan row
does not, and refuses the plan it has just written.
-/

set_option linter.unusedSectionVars false

namespace Sinan.Store

open Lib Execution Risk

section
variable {P F : Type} [DecidableEq P] [DecidableEq F] [F64 F]

/-- the plan is readable, and no version of its legs is ahead of its own -/
structure Sound (codec : PayloadCodec P F) (tables : Tables P F) (planId : PlanId)
    (stored : StoredExecutionPlan P F) : Prop where
  read : fetchExecutionPlanById codec tables planId = .ok (some stored)
  fresh : ∀ row ∈ planLegRows tables planId, row.updatedAt ≤ stored.updatedAt

/-- the plan row and the leg rows behind a readable plan -/
structure Behind (codec : PayloadCodec P F) (tables : Tables P F) (planId : PlanId)
    (stored : StoredExecutionPlan P F) (row : PlanRow P) (journal : ExecutionPlanJournal F)
    (rows : List (StoredExecutionLeg P F)) : Prop where
  found : (tables.plans.find? fun row => row.planId == planId) = some row
  decodes : Decodes codec tables row journal rows stored.plan.legs
  plan : stored.plan = planFromLegs journal.definition row.status stored.plan.legs
  createdAt : stored.createdAt = row.createdAt
  updatedAt : stored.updatedAt = row.updatedAt
  fresh : ∀ r ∈ planLegRows tables planId, r.updatedAt ≤ stored.updatedAt

theorem Sound.behind {codec : PayloadCodec P F} {tables : Tables P F} {planId : PlanId}
    {stored : StoredExecutionPlan P F} (h : Sound codec tables planId stored) :
    ∃ row journal rows, Behind codec tables planId stored row journal rows := by
  obtain ⟨row, hfound, hrow⟩ := fetchExecutionPlanById_ok.mp h.read
  obtain ⟨journal, rows, legs, hdecodes, rfl⟩ := executionPlanFromRow_ok.mp hrow
  exact ⟨row, journal, rows, hfound, hdecodes, rfl, rfl, rfl, h.fresh⟩

section
variable {codec : PayloadCodec P F} {tables : Tables P F} {planId : PlanId}
  {stored : StoredExecutionPlan P F} {row : PlanRow P} {journal : ExecutionPlanJournal F}
  {rows : List (StoredExecutionLeg P F)}

theorem Behind.row_planId (h : Behind codec tables planId stored row journal rows) :
    row.planId = planId := (find_key h.found).2

theorem Behind.stored_planId (h : Behind codec tables planId stored row journal rows) :
    stored.plan.definition.planId = planId := by
  have hcolumns := h.decodes.columns
  simp only [validatePlanColumns, validateColumn, bind_ok, exists_unit, reject_ok, ne_eq,
    not_not] at hcolumns
  rw [h.plan, ← h.row_planId]
  exact hcolumns.2.2.1.symm

theorem Behind.distinct (h : Behind codec tables planId stored row journal rows) :
    (legIds stored.plan.legs).Nodup := by
  have hdistinct := (ExecutionPlan.validate_ok.mp h.decodes.valid).1.distinct
  rw [← legIds_definition] at hdistinct
  exact hdistinct

theorem Behind.decoded (h : Behind codec tables planId stored row journal rows) :
    List.Forall₂ (fun r s => planLegFromRow codec row.createdAt r = .ok s)
      (planLegRows tables planId) rows := by
  have hstored := h.decodes.stored
  unfold storedLegs at hstored
  rw [h.row_planId] at hstored
  obtain ⟨zs, hzs, hforall⟩ := collectApart_ok hstored
  rw [List.nil_append] at hzs
  rw [hzs]
  exact hforall

theorem Behind.collected (h : Behind codec tables planId stored row journal rows) :
    collect (executionLegFromRow codec) (planLegRows tables planId) = .ok rows := by
  refine collect_ok.mpr (h.decoded.imp fun r s hs => ?_)
  exact executionLegFromRow_ok.mpr (planLegFromRow_ok.mp hs).1

theorem Behind.source (h : Behind codec tables planId stored row journal rows)
    {s : StoredExecutionLeg P F} (hs : s ∈ rows) :
    ∃ r ∈ tables.legs, r.planId = planId ∧ LegDecodes codec r s ∧ r.updatedAt ≤ stored.updatedAt := by
  obtain ⟨r, hr, hdecode⟩ := forall₂_mem_right h.decoded hs
  obtain ⟨hmem, hplan⟩ := List.mem_filter.mp hr
  exact ⟨r, hmem, eq_of_beq hplan, (planLegFromRow_ok.mp hdecode).1, h.fresh r hr⟩

theorem decoded_legIds {createdAt : Int} {rs : List (LegRow P)} {ss : List (StoredExecutionLeg P F)}
    (h : List.Forall₂ (fun r s => planLegFromRow codec createdAt r = .ok s) rs ss) :
    ss.map StoredExecutionLeg.legId = rs.map LegRow.legId := by
  induction h with
  | nil => rfl
  | cons hs _ ih => rw [List.map_cons, List.map_cons, ih, (planLegFromRow_ok.mp hs).1.legId]

theorem Behind.rows_distinct (h : Behind codec tables planId stored row journal rows) :
    (rows.map StoredExecutionLeg.legId).Nodup := by
  have hsame := decoded_legIds h.decoded
  rw [hsame]
  exact tables.legKey.sublist (List.filter_sublist.map LegRow.legId)

theorem Behind.fetched (hsound : Sound codec tables planId stored)
    (h : Behind codec tables planId stored row journal rows) {s : StoredExecutionLeg P F}
    (hs : s ∈ rows) (hleg : s.leg ∈ stored.plan.legs) :
    fetchExecutionLegById codec tables s.legId = .ok (some s) := by
  obtain ⟨r, hr, hplan, hdecodes, -⟩ := h.source hs
  have hfound : (tables.legs.find? fun row => row.legId == s.legId) = some r := by
    rw [hdecodes.legId]
    exact find_key_self tables.legKey hr
  unfold fetchExecutionLegById
  rw [hfound]
  simp only [bind_ok, exists_unit, need_ok, reject_ok, pure_ok, not_not]
  refine ⟨s, executionLegFromRow_ok.mpr hdecodes, some stored, ?_, stored, rfl, hleg, rfl⟩
  rw [hdecodes.planId, hplan]
  exact hsound.read

/-! ## the changed legs -/

theorem changedLegs_ok (hsound : Sound codec tables planId stored)
    (h : Behind codec tables planId stored row journal rows) {ls ps : List (ExecutionLeg F)}
    (hpair : List.Forall₂ (fun l p : ExecutionLeg F => p.definition = l.definition) ls ps)
    (hls : ∀ l ∈ ls, l ∈ stored.plan.legs) (hdistinct : (legIds ls).Nodup) :
    ∃ changed, changedLegs codec tables stored ps = .ok changed ∧
      (changed.map fun c => c.1.legId).Sublist (legIds ls) ∧ (∀ c ∈ changed, c.1 ∈ rows) ∧
      ∀ v, ls.map (restateLeg (changed.map (legStateUpdate v))) = ps := by
  induction hpair with
  | nil => exact ⟨[], rfl, List.Sublist.refl _, fun c hc => absurd hc List.not_mem_nil, fun v => rfl⟩
  | cons hdef _ ih =>
    rename_i l p ls ps _
    obtain ⟨hnew, hrest⟩ := List.nodup_cons.mp hdistinct
    obtain ⟨changed, hchanged, hsub, hrows, hrestate⟩ :=
      ih (fun l' hl' => hls l' (List.mem_cons_of_mem l hl')) hrest
    have hmem : l ∈ stored.plan.legs := hls l List.mem_cons_self
    have hcurrent : (stored.plan.legs.find? fun leg =>
        leg.definition.legId == p.definition.legId) = some l := by
      rw [hdef]
      exact find_key_self h.distinct hmem
    have hunchanged : l.definition.legId ∉ changed.map fun c => c.1.legId :=
      fun hl => hnew (hsub.subset hl)
    have hids : ∀ v, (changed.map (legStateUpdate v)).map LegStateUpdate.legId
        = changed.map fun c => c.1.legId := fun v => by
      rw [List.map_map]
      rfl
    unfold changedLegs
    rw [hcurrent]
    by_cases hstate : p.state = l.state
    · refine ⟨changed, ?_, hsub.cons _, hrows, fun v => ?_⟩
      · show (if p.state = l.state then changedLegs codec tables stored ps else _) = _
        rw [if_pos hstate]
        exact hchanged
      · rw [List.map_cons, hrestate v]
        have hp : restateLeg (changed.map (legStateUpdate v)) l = p := by
          unfold restateLeg
          rw [updateOf_none (by rw [hids v]; exact hunchanged)]
          show ExecutionLeg.mk l.definition l.state = ExecutionLeg.mk p.definition p.state
          rw [hdef, hstate]
        rw [hp]
    · obtain ⟨s, hs, hsleg⟩ := matchJournalLegs_mem h.decodes.matched l hmem
      have hid : s.legId = l.definition.legId := by rw [← hsleg]; rfl
      have hfetched : fetchExecutionLegById codec tables p.definition.legId = .ok (some s) := by
        rw [hdef, ← hid]
        exact Behind.fetched hsound h hs (by rw [hsleg]; exact hmem)
      refine ⟨(s, p.state) :: changed, ?_, ?_, ?_, fun v => ?_⟩
      · show (if p.state = l.state then changedLegs codec tables stored ps else _) = _
        rw [if_neg hstate, hfetched]
        simp only [liftStore, bind_ok, need_ok, pure_ok]
        exact ⟨some s, rfl, s, rfl, changed, hchanged, rfl⟩
      · show (s.legId :: changed.map fun c => c.1.legId).Sublist (l.definition.legId :: legIds ls)
        rw [hid]
        exact hsub.cons_cons _
      · rintro c hc
        rcases List.mem_cons.mp hc with rfl | hc
        · exact hs
        · exact hrows c hc
      · have hu : (legStateUpdate v (s, p.state)).legId = l.definition.legId := hid
        rw [List.map_cons, List.map_cons]
        have hp : restateLeg (legStateUpdate v (s, p.state) :: changed.map (legStateUpdate v)) l
            = p := by
          unfold restateLeg
          rw [← hu, updateOf_cons_self]
          show ExecutionLeg.mk l.definition p.state = ExecutionLeg.mk p.definition p.state
          rw [hdef]
        have hps : ls.map (restateLeg (legStateUpdate v (s, p.state) ::
            changed.map (legStateUpdate v))) = ps := by
          rw [← hrestate v]
          refine List.map_congr_left fun l' hl' => ?_
          unfold restateLeg
          rw [updateOf_cons_ne]
          rw [hu]
          exact fun hsame => hnew (List.mem_map.mpr ⟨l', hl', hsame.symm⟩)
        rw [hp, hps]

/-! ## the write -/

/-- what an update leaves behind: restated legs and a restated plan row -/
structure Written (tables written : Tables P F) (us : List LegStateUpdate)
    (u : PlanStateUpdate) : Prop where
  legs : written.legs = tables.legs.map (restateRow us)
  plans : written.plans = tables.plans.map u.write
  risk : written.risk = tables.risk
  intent : written.intent = tables.intent

variable {u : PlanStateUpdate} {changed : List (StoredExecutionLeg P F × ExecutionLegState)}

theorem PlanStateUpdate.hits_planId {r : PlanRow P} (h : u.hits r = true) :
    r.planId = u.planId := by
  simp only [PlanStateUpdate.hits, Bool.and_eq_true, beq_iff_eq] at h
  exact h.1.1.1

theorem latest_of_fresh (h : Behind codec tables planId stored row journal rows)
    (hrows : ∀ c ∈ changed, c.1 ∈ rows) (evidenceAt : Int) :
    latestProjectionAt stored changed evidenceAt = max stored.updatedAt evidenceAt := by
  have hfold : ∀ cs : List (StoredExecutionLeg P F × ExecutionLegState), (∀ c ∈ cs, c.1 ∈ rows) →
      cs.foldl (fun latest c => max latest c.1.updatedAt) stored.updatedAt = stored.updatedAt := by
    intro cs hcs
    induction cs with
    | nil => rfl
    | cons c cs ih =>
      obtain ⟨r, -, -, hdecodes, hfresh⟩ := h.source (hcs c List.mem_cons_self)
      rw [← hdecodes.updatedAt] at hfresh
      rw [List.foldl_cons, Int.max_eq_left hfresh]
      exact ih fun c' hc' => hcs c' (List.mem_cons_of_mem c hc')
  unfold latestProjectionAt
  rw [hfold changed hrows]

variable {v : Int} {c : StoredExecutionLeg P F × ExecutionLegState} {projected : ExecutionPlan F}

theorem changed_hit (h : Behind codec tables planId stored row journal rows) (hc : c.1 ∈ rows)
    (hv : stored.updatedAt < v) :
    ∃ r, Hit tables (legStateUpdate v c) r := by
  obtain ⟨r, hr, hplan, hdecodes, hfresh⟩ := h.source hc
  refine ⟨r, hr, ?_⟩
  have hlt : r.updatedAt < v := Int.lt_of_le_of_lt hfresh hv
  simp only [LegStateUpdate.hits, legStateUpdate, hdecodes.planId, hdecodes.legId, hdecodes.status,
    hdecodes.updatedAt, beq_self_eq_true, decide_true, Bool.and_self, decide_eq_true hlt]

theorem validateLegVersion_ok (h : Behind codec tables planId stored row journal rows)
    (hc : c.1 ∈ rows) (hv : stored.updatedAt < v) :
    validateLegVersion rows (legStateUpdate v c) = .ok () := by
  obtain ⟨r, hr, hplan, hdecodes, hfresh⟩ := h.source hc
  have hfound : rows.find? (fun s => s.legId == (legStateUpdate v c).legId) = some c.1 :=
    find_key_self h.rows_distinct hc
  unfold validateLegVersion
  rw [hfound]
  simp only [bind_ok, exists_unit, need_ok, reject_ok, not_or, not_not, ne_eq]
  refine ⟨c.1, rfl, rfl, rfl, rfl, ?_⟩
  show ¬ v ≤ c.1.updatedAt
  rw [hdecodes.updatedAt]
  omega

theorem max?_getD_le {xs : List Int} {d : Int} (hxs : ∀ x ∈ xs, x ≤ v) (hd : d ≤ v) :
    xs.max?.getD d ≤ v := by
  cases hmax : xs.max? with
  | none => exact hd
  | some m => exact hxs m (List.max?_mem hmax)

/-- the update that `persistPlanProjection` builds passes every check before the rows are written -/
theorem validateLifecycleUpdate_ok (h : Behind codec tables planId stored row journal rows)
    (hsub : (changed.map fun c => c.1.legId).Sublist (legIds stored.plan.legs))
    (hrows : ∀ c ∈ changed, c.1 ∈ rows) (hv : stored.updatedAt < v)
    (hdefinition : projected.definition = stored.plan.definition)
    (hlegs : stored.plan.legs.map (restateLeg (changed.map (legStateUpdate v))) = projected.legs)
    (hvalid : projected.validate = .ok ()) :
    validateLifecycleUpdate stored rows (lifecycleUpdate stored changed projected.state v)
      = .ok () := by
  have hids : (changed.map (legStateUpdate v)).map LegStateUpdate.legId
      = changed.map fun c => c.1.legId := by
    rw [List.map_map]
    rfl
  have happly : applyLegUpdates stored.plan.definition.planId stored.plan.legs
      (changed.map (legStateUpdate v)) = .ok projected.legs := by
    rw [applyLegUpdates_eq _ h.distinct, hlegs]
    · rw [hids]
      exact h.distinct.sublist hsub
    · intro u hu
      refine hsub.subset ?_
      rw [← hids]
      exact List.mem_map_of_mem hu
  have hfinal : ({ stored.plan with legs := projected.legs, state := projected.state } :
      ExecutionPlan F) = projected := by
    show ExecutionPlan.mk stored.plan.definition projected.legs projected.state = projected
    rw [← hdefinition]
  simp only [validateLifecycleUpdate, bind_ok, exists_unit, reject_ok, each_ok]
  refine ⟨?_, ?_, projected.legs, happly, ?_, ?_⟩
  · rintro (hstatus | hversion | hstale)
    · exact hstatus rfl
    · exact hversion rfl
    · exact absurd hstale (Int.not_le.mpr hv)
  · intro u hu
    obtain ⟨c, hc, rfl⟩ := List.mem_map.mp hu
    exact validateLegVersion_ok h (hrows c hc) hv
  · show semanticRecord _ (ExecutionPlan.validate { stored.plan with
      legs := projected.legs, state := projected.state }) = .ok ()
    rw [hfinal, hvalid]
    rfl
  · refine Int.not_lt.mpr (max?_getD_le ?_ ?_)
    · intro x hx
      rcases List.mem_append.mp hx with hx | hx
      · obtain ⟨u, hu, rfl⟩ := List.mem_map.mp hx
        obtain ⟨c, -, rfl⟩ := List.mem_map.mp hu
        exact Int.le_refl v
      · obtain ⟨s, hs, rfl⟩ := List.mem_map.mp hx
        obtain ⟨r, -, -, hdecodes, hfresh⟩ := h.source (List.mem_filter.mp hs).1
        rw [hdecodes.updatedAt]
        exact Int.le_of_lt (Int.lt_of_le_of_lt hfresh hv)
    · have hcreated := h.decodes.updated
      rw [← h.updatedAt, ← h.createdAt] at hcreated
      exact Int.le_of_lt (Int.lt_of_le_of_lt hcreated hv)

theorem Behind.plan_hit (h : Behind codec tables planId stored row journal rows)
    {state : ExecutionPlanState} (hv : stored.updatedAt < v) :
    (lifecycleUpdate stored changed state v).plan.hits row = true := by
  have hstatus : row.status = stored.plan.state.status := by
    rw [h.plan]
    rfl
  have hplan : row.planId = stored.plan.definition.planId := by
    rw [h.row_planId, h.stored_planId]
  have hlt : row.updatedAt < v := by
    rw [← h.updatedAt]
    exact hv
  simp only [PlanStateUpdate.hits, lifecycleUpdate, hplan, hstatus, h.updatedAt, beq_self_eq_true,
    decide_true, Bool.and_self, decide_eq_true hlt]

theorem updatePlanRow_ok {before : Tables P F} {r : PlanRow P} (hmem : r ∈ before.plans)
    (hhit : u.hits r = true) :
    ∃ written, updatePlanRow before u = .ok written ∧ written.plans = before.plans.map u.write ∧
      written.legs = before.legs ∧ written.risk = before.risk ∧ written.intent = before.intent := by
  have hcount : before.plans.countP u.hits = 1 :=
    countP_eq_one before.planKey hmem hhit fun r' _ hr' => by
      rw [PlanStateUpdate.hits_planId hr', PlanStateUpdate.hits_planId hhit]
  unfold updatePlanRow
  rw [hcount]
  exact ⟨_, rfl, rfl, rfl, rfl, rfl⟩

theorem writes_ok (h : Behind codec tables planId stored row journal rows)
    (hsub : (changed.map fun c => c.1.legId).Sublist (legIds stored.plan.legs))
    (hrows : ∀ c ∈ changed, c.1 ∈ rows) (state : ExecutionPlanState) (hv : stored.updatedAt < v) :
    ∃ legsWritten written,
      updateLegRows tables (changed.map (legStateUpdate v)) = .ok legsWritten ∧
      updatePlanRow legsWritten (lifecycleUpdate stored changed state v).plan = .ok written ∧
      Written tables written (changed.map (legStateUpdate v))
        (lifecycleUpdate stored changed state v).plan := by
  have hids : (changed.map (legStateUpdate v)).map LegStateUpdate.legId
      = changed.map fun c => c.1.legId := by
    rw [List.map_map]
    rfl
  have hdistinct : ((changed.map (legStateUpdate v)).map LegStateUpdate.legId).Nodup := by
    rw [hids]
    exact h.distinct.sublist hsub
  have hhit : ∀ u ∈ changed.map (legStateUpdate v), ∃ r, Hit tables u r := by
    intro u hu
    obtain ⟨c, hc, rfl⟩ := List.mem_map.mp hu
    exact changed_hit h (hrows c hc) hv
  obtain ⟨legsWritten, hlegs, hrestated⟩ := updateLegRows_ok hdistinct hhit
  have hplan : (lifecycleUpdate stored changed state v).plan.hits row = true := h.plan_hit hv
  have hmem : row ∈ legsWritten.plans := by
    rw [hrestated.plans]
    exact List.mem_of_find?_eq_some h.found
  obtain ⟨written, hwrite, hplans, hlegs', hrisk, hintent⟩ := updatePlanRow_ok hmem hplan
  refine ⟨legsWritten, written, hlegs, hwrite, ?_, ?_, ?_, ?_⟩
  · rw [hlegs', hrestated.legs]
  · rw [hplans, hrestated.plans]
  · rw [hrisk, hrestated.risk]
  · rw [hintent, hrestated.intent]

/-- the plan row after the update -/
def restatePlanRow (row : PlanRow P) (status : ExecutionPlanStatus) (v : Int) : PlanRow P :=
  { row with status := status, updatedAt := v }

variable {written : Tables P F}

theorem Written.found (h : Behind codec tables planId stored row journal rows)
    {state : ExecutionPlanState} (hv : stored.updatedAt < v) {us : List LegStateUpdate}
    (hwritten : Written tables written us (lifecycleUpdate stored changed state v).plan) :
    (written.plans.find? fun r => r.planId == planId)
      = some (restatePlanRow row state.status v) := by
  have hkey : (fun r : PlanRow P => r.planId == planId) ∘
      (lifecycleUpdate stored changed state v).plan.write = fun r => r.planId == planId :=
    funext fun r => by simp only [Function.comp, PlanStateUpdate.write_planId]
  rw [hwritten.plans, List.find?_map, hkey, h.found]
  show some ((lifecycleUpdate stored changed state v).plan.write row) = _
  unfold PlanStateUpdate.write
  rw [if_pos (h.plan_hit hv)]
  rfl

theorem Written.fresh (h : Behind codec tables planId stored row journal rows)
    (hv : stored.updatedAt < v)
    (hwritten : Written tables written (changed.map (legStateUpdate v)) u) :
    ∀ r ∈ planLegRows written planId, r.updatedAt ≤ v := by
  intro r hr
  rw [planLegRows_restate hwritten.legs] at hr
  obtain ⟨old, hold, rfl⟩ := List.mem_map.mp hr
  unfold restateRow
  cases hu : updateOf (changed.map (legStateUpdate v)) old.legId with
  | none => exact Int.le_of_lt (Int.lt_of_le_of_lt (h.fresh old hold) hv)
  | some lu =>
    obtain ⟨c, -, rfl⟩ := List.mem_map.mp (updateOf_mem hu).1
    exact Int.le_refl v

theorem planFromLegs_eq (hstate : projected.state = derivedState projected.legs)
    (hnone : ∀ leg ∈ projected.legs, leg.state.status ≠ .partiallyFilled) :
    planFromLegs projected.definition projected.state.status projected.legs = projected := by
  have hfilled : summaryOf (fun s => s == .filled) projected.legs
      = summaryOf ExecutionLegStatus.isFilled projected.legs := by
    unfold summaryOf
    congr 1
    refine List.filter_congr fun leg hleg => ?_
    have hne := hnone leg hleg
    cases hs : leg.state.status with
    | partiallyFilled => exact absurd hs hne
    | _ => rfl
  show ExecutionPlan.mk projected.definition projected.legs _ = projected
  rw [hfilled]
  have hfields : ExecutionPlanState.mk projected.state.status
      (summaryOf ExecutionLegStatus.isFilled projected.legs)
      (summaryOf ExecutionLegStatus.isFailed projected.legs) = projected.state := by
    rw [hstate]
    rfl
  rw [hfields]

theorem Written.read (h : Behind codec tables planId stored row journal rows)
    (hv : stored.updatedAt < v)
    (hwritten : Written tables written (changed.map (legStateUpdate v))
      (lifecycleUpdate stored changed projected.state v).plan)
    (hdefinition : projected.definition = stored.plan.definition)
    (hlegs : stored.plan.legs.map (restateLeg (changed.map (legStateUpdate v))) = projected.legs)
    (hstate : projected.state = derivedState projected.legs) (hvalid : projected.validate = .ok ())
    (hnone : ∀ leg ∈ projected.legs, leg.state.status ≠ .partiallyFilled) :
    ∃ final, fetchExecutionPlanById codec written planId = .ok (some final) ∧
      final.plan = projected ∧ final.updatedAt = v := by
  have hjournal : journal.definition = projected.definition := by
    rw [hdefinition, h.plan]
    rfl
  have hplan : planFromLegs journal.definition projected.state.status
      (stored.plan.legs.map (restateLeg (changed.map (legStateUpdate v)))) = projected := by
    rw [hlegs, hjournal]
    exact planFromLegs_eq hstate hnone
  have hcreated : row.createdAt ≤ v := by
    have hupdated := h.decodes.updated
    rw [← h.updatedAt] at hupdated
    exact Int.le_of_lt (Int.lt_of_le_of_lt hupdated hv)
  have hdecodes : Decodes codec written (restatePlanRow row projected.state.status v) journal
      (rows.map (restateStored (changed.map (legStateUpdate v))))
      (stored.plan.legs.map (restateLeg (changed.map (legStateUpdate v)))) := by
    refine h.decodes.restate hwritten.legs hwritten.risk hwritten.intent rfl hcreated ?_ ?_
    · intro u hu
      obtain ⟨c, -, rfl⟩ := List.mem_map.mp hu
      exact hcreated
    · show (planFromLegs journal.definition projected.state.status _).validate = .ok ()
      rw [hplan]
      exact hvalid
  have hrow := executionPlanFromRow_ok.mpr ⟨journal, _, _, hdecodes, rfl⟩
  refine ⟨_, fetchExecutionPlanById_ok.mpr ⟨_, Written.found h hv hwritten, hrow⟩, ?_, rfl⟩
  exact hplan

/-! ## persisting -/

variable {states : List ExecutionCommandState} {events : List (ExecutionEvent F)}

theorem liftStore_ok {α : Type} {r : StoreCheck α} {a : α} : liftStore r = .ok a ↔ r = .ok a := by
  cases r with
  | error e => exact ⟨fun h => (by cases h), fun h => (by cases h)⟩
  | ok b => exact ⟨fun h => by cases h; rfl, fun h => by cases h; rfl⟩

theorem fetchRequiredPlan_ok {tables : Tables P F} {planId : PlanId}
    {stored : StoredExecutionPlan P F} : fetchRequiredPlan codec tables planId = .ok stored ↔
      fetchExecutionPlanById codec tables planId = .ok (some stored) := by
  simp only [fetchRequiredPlan, bind_ok, need_ok]
  constructor
  · rintro ⟨found, hfound, hsome⟩
    exact hsome ▸ hfound
  · intro h
    exact ⟨some stored, h, rfl⟩

theorem shape_ok (h : Behind codec tables planId stored row journal rows) (hne : changed ≠ [])
    (hsub : (changed.map fun c => c.1.legId).Sublist (legIds stored.plan.legs))
    (hrows : ∀ c ∈ changed, c.1 ∈ rows) (state : ExecutionPlanState) (v : Int) :
    validateExecutionLifecycleUpdateShape (lifecycleUpdate stored changed state v) = .ok () := by
  simp only [validateExecutionLifecycleUpdateShape, bind_ok, exists_unit, reject_ok,
    eachApart_key_ok, ne_eq, not_not, and_true]
  refine ⟨?_, ?_, ?_⟩
  · rw [List.isEmpty_iff]
    exact fun hnil => hne (List.map_eq_nil_iff.mp hnil)
  · show ((changed.map (legStateUpdate v)).map LegStateUpdate.legId).Nodup
    rw [List.map_map]
    exact h.distinct.sublist hsub
  · intro u hu
    obtain ⟨c, hc, rfl⟩ := List.mem_map.mp hu
    obtain ⟨r, -, hplan, hdecodes, -⟩ := h.source (hrows c hc)
    show c.1.planId = stored.plan.definition.planId
    rw [hdecodes.planId, hplan, h.stored_planId]

theorem update_readback (hsound : Sound codec tables planId stored)
    (h : Behind codec tables planId stored row journal rows) (hne : changed ≠ [])
    (hsub : (changed.map fun c => c.1.legId).Sublist (legIds stored.plan.legs))
    (hrows : ∀ c ∈ changed, c.1 ∈ rows) (hv : stored.updatedAt < v)
    (hdefinition : projected.definition = stored.plan.definition)
    (hlegs : stored.plan.legs.map (restateLeg (changed.map (legStateUpdate v))) = projected.legs)
    (hvalid : projected.validate = .ok ()) :
    ∃ written, Written tables written (changed.map (legStateUpdate v))
        (lifecycleUpdate stored changed projected.state v).plan ∧
      updateExecutionLifecycle codec tables (lifecycleUpdate stored changed projected.state v)
        = (fetchRequiredPlan codec written planId >>= fun final => .ok (written, final)) := by
  obtain ⟨legsWritten, written, hwriteLegs, hwritePlan, hwritten⟩ :=
    writes_ok h hsub hrows projected.state hv
  refine ⟨written, hwritten, ?_⟩
  have hplanId : (lifecycleUpdate stored changed projected.state v).plan.planId = planId :=
    h.stored_planId
  have hreplay : exactReplay stored rows (lifecycleUpdate stored changed projected.state v)
      = false := by
    have hversion : ¬ stored.updatedAt = v := Int.ne_of_lt hv
    simp only [exactReplay, lifecycleUpdate, hversion, decide_false, Bool.and_false,
      Bool.false_and]
  unfold updateExecutionLifecycle
  rw [shape_ok h hne hsub hrows]
  show updateExecutionLifecycleInSavepoint codec tables _ = _
  unfold updateExecutionLifecycleInSavepoint
  rw [hplanId, fetchRequiredPlan_ok.mpr hsound.read]
  show (collect (executionLegFromRow codec) (planLegRows tables planId) >>= fun stored' => _) = _
  rw [h.collected]
  show (if exactReplay stored rows _ = true then _ else _) = _
  rw [hreplay, if_neg Bool.false_ne_true,
    validateLifecycleUpdate_ok h hsub hrows hv hdefinition hlegs hvalid]
  show (updateLegRows tables (changed.map (legStateUpdate v)) >>= fun next => _) = _
  rw [hwriteLegs]
  show (updatePlanRow legsWritten _ >>= fun next => _) = _
  rw [hwritePlan]
  rfl

theorem projected_unchanged (h : Behind codec tables planId stored row journal rows)
    (hdefinition : projected.definition = stored.plan.definition)
    (hlegs : projected.legs = stored.plan.legs)
    (hstate : projected.state = derivedState projected.legs) : projected = stored.plan := by
  have hderived := (ExecutionPlan.validate_ok.mp h.decodes.valid).2
  rw [← h.plan] at hderived
  have hsame : stored.plan.state = derivedState stored.plan.legs := by
    show ExecutionPlanState.mk stored.plan.state.status stored.plan.state.filledLegs
      stored.plan.state.failedLegs = _
    rw [hderived.status, hderived.filled, hderived.failed]
    rfl
  show ExecutionPlan.mk projected.definition projected.legs projected.state = _
  rw [hstate, hdefinition, hlegs, ← hsame]

/-- What `persistPlanProjection` does with a plan that projects: nothing when no leg changed, else it
writes an update and reads it back. -/
theorem persist_cases (hsound : Sound codec tables planId stored)
    (h : Behind codec tables planId stored row journal rows) (evidenceAt : Int)
    (hproject : projectPlan stored.plan states events = .ok projected) :
    (projected = stored.plan ∧
      persistPlanProjection codec tables stored states events evidenceAt = .ok tables) ∨
    ∃ changed : List (StoredExecutionLeg P F × ExecutionLegState),
      (∀ v, stored.plan.legs.map (restateLeg (changed.map (legStateUpdate v))) = projected.legs) ∧
      ∃ v, v = max stored.updatedAt evidenceAt + 1 ∧
        ((v ≤ i64Max ∧ ∃ written, Written tables written (changed.map (legStateUpdate v))
            (lifecycleUpdate stored changed projected.state v).plan ∧
          persistPlanProjection codec tables stored states events evidenceAt
            = (liftStore (fetchRequiredPlan codec written planId) >>= fun _ => .ok written)) ∨
        (i64Max < v ∧ ∃ e, persistPlanProjection codec tables stored states events evidenceAt
            = .error e)) := by
  have hprojects := projectPlan_ok hproject
  have hpair : List.Forall₂ (fun l p : ExecutionLeg F => p.definition = l.definition)
      stored.plan.legs projected.legs := hprojects.legs.imp fun l p hp => (projectLeg_ok hp).1
  obtain ⟨changed, hchanged, hsub, hrows, hrestate⟩ :=
    changedLegs_ok hsound h hpair (fun l hl => hl) h.distinct
  have hlatest := latest_of_fresh h hrows evidenceAt
  have hpersist : persistPlanProjection codec tables stored states events evidenceAt
      = if changed = [] then pure tables else do
          let updatedAt ← need (checkedAdd (max stored.updatedAt evidenceAt) 1)
            (.terminal "execution projection timestamp overflow")
          let updated ← liftStore (updateExecutionLifecycle codec tables
            (lifecycleUpdate stored changed projected.state updatedAt))
          return updated.1 := by
    unfold persistPlanProjection
    rw [hproject]
    show (changedLegs codec tables stored projected.legs >>= fun changed => _) = _
    rw [hchanged, ← hlatest]
    rfl
  by_cases hne : changed = []
  · left
    rw [hpersist, if_pos hne]
    refine ⟨projected_unchanged h hprojects.definition ?_ hprojects.state, rfl⟩
    rw [← hrestate 0, hne]
    exact List.map_id'' (fun leg => rfl) _
  · right
    refine ⟨changed, hrestate, _, rfl, ?_⟩
    rw [if_neg hne] at hpersist
    have hnonneg : 0 ≤ stored.updatedAt := by
      rw [h.updatedAt]
      exact Int.le_trans h.decodes.created h.decodes.updated
    by_cases hfits : max stored.updatedAt evidenceAt + 1 ≤ i64Max
    · left
      have hadd : checkedAdd (max stored.updatedAt evidenceAt) 1
          = some (max stored.updatedAt evidenceAt + 1) := by
        unfold checkedAdd
        rw [if_pos ⟨by unfold i64Min; omega, hfits⟩]
      have hv : stored.updatedAt < max stored.updatedAt evidenceAt + 1 := by omega
      obtain ⟨written, hwritten, hupdate⟩ := update_readback hsound h hne hsub hrows hv
        hprojects.definition (hrestate _) hprojects.valid
      refine ⟨hfits, written, hwritten, ?_⟩
      rw [hpersist, hadd]
      show (liftStore (updateExecutionLifecycle codec tables _) >>= fun updated => _) = _
      rw [hupdate]
      cases fetchRequiredPlan codec written planId with
      | error e => rfl
      | ok final => rfl
    · right
      have hadd : checkedAdd (max stored.updatedAt evidenceAt) 1 = none := by
        unfold checkedAdd
        rw [if_neg fun hbounds => hfits hbounds.2]
      refine ⟨Int.not_le.mp hfits, .terminal "execution projection timestamp overflow", ?_⟩
      rw [hpersist, hadd]
      rfl

/-! ## agreement -/

/-- the projection is written, and the plan read back is the projected one -/
def Agrees (codec : PayloadCodec P F) (tables : Tables P F) (stored : StoredExecutionPlan P F)
    (states : List ExecutionCommandState) (events : List (ExecutionEvent F)) (evidenceAt : Int)
    (projected : ExecutionPlan F) : Prop :=
  ∃ next final, persistPlanProjection codec tables stored states events evidenceAt = .ok next ∧
    fetchExecutionPlanById codec next stored.plan.definition.planId = .ok (some final) ∧
    final.plan = projected

theorem read_not_partiallyFilled
    (h : fetchExecutionPlanById codec tables planId = .ok (some stored)) :
    ∀ leg ∈ stored.plan.legs, leg.state.status ≠ .partiallyFilled := by
  obtain ⟨row, -, hrow⟩ := fetchExecutionPlanById_ok.mp h
  obtain ⟨journal, rows, legs, hdecodes, rfl⟩ := executionPlanFromRow_ok.mp hrow
  exact fun leg hleg => hdecodes.not_partiallyFilled hleg

theorem agrees_iff (hsound : Sound codec tables planId stored) {evidenceAt : Int}
    (hproject : projectPlan stored.plan states events = .ok projected)
    (hfits : max stored.updatedAt evidenceAt < i64Max) :
    Agrees codec tables stored states events evidenceAt projected ↔
      ¬ BarePartialFill stored.plan states events := by
  obtain ⟨row, journal, rows, h⟩ := hsound.behind
  have hprojects := projectPlan_ok hproject
  rw [← hprojects.partiallyFilled_iff]
  constructor
  · rintro ⟨next, final, -, hread, rfl⟩ ⟨leg, hleg, hstatus⟩
    exact read_not_partiallyFilled hread leg hleg hstatus
  · intro hnone
    have hnone' : ∀ leg ∈ projected.legs, leg.state.status ≠ .partiallyFilled :=
      fun leg hleg hstatus => hnone ⟨leg, hleg, hstatus⟩
    unfold Agrees
    rw [h.stored_planId]
    rcases persist_cases hsound h evidenceAt hproject with
      ⟨hsame, hpersist⟩ | ⟨changed, hlegs, v, rfl, hwrite⟩
    · exact ⟨tables, stored, hpersist, hsound.read, hsame.symm⟩
    · rcases hwrite with ⟨-, written, hwritten, hpersist⟩ | ⟨hover, -⟩
      · have hv : stored.updatedAt < max stored.updatedAt evidenceAt + 1 := by omega
        obtain ⟨final, hread, hplan, -⟩ := Written.read h hv hwritten hprojects.definition
          (hlegs _) hprojects.state hprojects.valid hnone'
        refine ⟨written, final, ?_, hread, hplan⟩
        rw [hpersist, fetchRequiredPlan_ok.mpr hread]
        rfl
      · omega

theorem persist_sound (hsound : Sound codec tables planId stored) {evidenceAt : Int}
    {next : Tables P F}
    (hpersist : persistPlanProjection codec tables stored states events evidenceAt = .ok next) :
    ∃ final, Sound codec next planId final := by
  obtain ⟨row, journal, rows, h⟩ := hsound.behind
  cases hproject : projectPlan stored.plan states events with
  | error e =>
    unfold persistPlanProjection at hpersist
    rw [hproject] at hpersist
    cases hpersist
  | ok projected =>
    rcases persist_cases hsound h evidenceAt hproject with
      ⟨-, hsame⟩ | ⟨changed, -, v, rfl, ⟨-, written, hwritten, hread⟩ | ⟨-, e, herror⟩⟩
    · rw [hsame] at hpersist
      cases hpersist
      exact ⟨stored, hsound⟩
    · rw [hread] at hpersist
      obtain ⟨final, hfinal, hnext⟩ := bind_ok.mp hpersist
      cases hnext
      have hfetch := fetchRequiredPlan_ok.mp (liftStore_ok.mp hfinal)
      have hv : stored.updatedAt < max stored.updatedAt evidenceAt + 1 := by omega
      refine ⟨final, hfetch, ?_⟩
      obtain ⟨row', hfound, hrow'⟩ := fetchExecutionPlanById_ok.mp hfetch
      rw [Written.found h hv hwritten] at hfound
      cases hfound
      obtain ⟨_, _, _, -, rfl⟩ := executionPlanFromRow_ok.mp hrow'
      exact Written.fresh h hv hwritten
    · rw [herror] at hpersist
      cases hpersist

end

/-! ## runs -/

/-- the evidence one inbound message leaves for the projection -/
structure ProjectionInput (F : Type) where
  states : List ExecutionCommandState
  events : List (ExecutionEvent F)
  evidenceAt : Int

/-- one message: the stored plan is loaded, its projection is persisted, and an error rolls back -/
def projectionStep (codec : PayloadCodec P F) (planId : PlanId) (tables : Tables P F)
    (input : ProjectionInput F) : Tables P F :=
  match fetchExecutionPlanById codec tables planId with
  | .ok (some stored) =>
    match persistPlanProjection codec tables stored input.states input.events input.evidenceAt with
    | .ok next => next
    | .error _ => tables
  | _ => tables

def projectionRun (codec : PayloadCodec P F) (planId : PlanId) (tables : Tables P F)
    (inputs : List (ProjectionInput F)) : Tables P F :=
  inputs.foldl (projectionStep codec planId) tables

theorem projectionStep_sound {codec : PayloadCodec P F} {planId : PlanId} {tables : Tables P F}
    {stored : StoredExecutionPlan P F} (h : Sound codec tables planId stored)
    (input : ProjectionInput F) :
    ∃ final, Sound codec (projectionStep codec planId tables input) planId final := by
  unfold projectionStep
  rw [h.read]
  dsimp only
  split
  · exact persist_sound h (by assumption)
  · exact ⟨stored, h⟩

theorem projectionRun_sound {codec : PayloadCodec P F} {planId : PlanId}
    (inputs : List (ProjectionInput F)) {tables : Tables P F} {stored : StoredExecutionPlan P F}
    (h : Sound codec tables planId stored) :
    ∃ final, Sound codec (projectionRun codec planId tables inputs) planId final := by
  induction inputs generalizing tables stored with
  | nil => exact ⟨stored, h⟩
  | cons input inputs ih =>
    obtain ⟨next, hnext⟩ := projectionStep_sound h input
    exact ih hnext

/-- In every state a run reaches the plan is readable, and a projection of it is written and read back
as projected exactly when no leg is filled in part without an event of its full fill. -/
theorem projection_agrees_iff {codec : PayloadCodec P F} {planId : PlanId} {tables : Tables P F}
    {stored : StoredExecutionPlan P F} (h : Sound codec tables planId stored)
    (inputs : List (ProjectionInput F)) :
    ∃ current,
      fetchExecutionPlanById codec (projectionRun codec planId tables inputs) planId
        = .ok (some current) ∧
      ∀ states events evidenceAt projected,
        projectPlan current.plan states events = .ok projected →
        max current.updatedAt evidenceAt < i64Max →
        (Agrees codec (projectionRun codec planId tables inputs) current states events evidenceAt
          projected ↔ ¬ BarePartialFill current.plan states events) := by
  obtain ⟨current, hcurrent⟩ := projectionRun_sound inputs h
  refine ⟨current, hcurrent.read, fun states events evidenceAt projected hproject hfits => ?_⟩
  exact agrees_iff hcurrent hproject hfits

end

/-! ## a fill in part

The plan of the request to buy gold as it is stored, with its command filled in part. -/

def goldLegDefinition : ExecutionLegDefinition ℚ where
  legId := "leg:intent-1:0"
  symbol := "XAUUSD"
  action := .buy
  lots := some (1 / 10)
  sl := some 1990
  tp := some (4041 / 2)
  ratio := 1
  dependency := []

def goldPlanDefinition : ExecutionPlanDefinition where
  planId := "plan-1"
  accountId := "account-1"
  strategyId := "strategy-1"
  mode := .simultaneous
  failurePolicy := .cancelAll
  rollbackPolicy := none

def goldLegPayload : String :=
  "\x7b\"action\":\"BUY\",\"dependency\":[],\"leg_id\":\"leg:intent-1:0\",\"lots\":0.1," ++
  "\"ratio\":1.0,\"sl\":1990.0,\"symbol\":\"XAUUSD\",\"tp\":2020.5\x7d"

def goldPlanPayload : String :=
  "\x7b\"definition\":\x7b\"account_id\":\"account-1\",\"failure_policy\":\"cancel_all\"," ++
  "\"mode\":\"simultaneous\",\"plan_id\":\"plan-1\",\"strategy_id\":\"strategy-1\"\x7d," ++
  "\"intent_id\":\"intent-1\",\"legs\":[" ++ goldLegPayload ++ "],\"risk_id\":\"risk-1\"\x7d"

def goldCodec : PayloadCodec String ℚ where
  plan := fun p =>
    if p = goldPlanPayload then
      some ⟨"risk-1", "intent-1", goldPlanDefinition, [goldLegDefinition]⟩
    else none
  leg := fun p => if p = goldLegPayload then some goldLegDefinition else none
  canonical := fun d => if d = goldLegDefinition then some goldLegPayload else none

def goldTables : Tables String ℚ where
  plans :=
    [{ planId := "plan-1", riskId := "risk-1", intentId := "intent-1", accountId := "account-1"
       strategyId := "strategy-1", status := .pending, mode := .simultaneous
       failurePolicy := .cancelAll, payload := goldPlanPayload, createdAt := 10000
       updatedAt := 10000 }]
  legs :=
    [{ legId := "leg:intent-1:0", planId := "plan-1", symbol := "XAUUSD", action := .buy
       status := .pending, payload := goldLegPayload, updatedAt := 10000 }]
  risk := fun id => .ok (if id = "risk-1" then some goldResult else none)
  intent := fun id => .ok (if id = "intent-1" then some ⟨goldIntent, .accepted⟩ else none)
  planKey := by decide
  legKey := by decide

def goldStored : StoredExecutionPlan String ℚ where
  plan := ⟨goldPlanDefinition, [⟨goldLegDefinition, ⟨.pending⟩⟩], ⟨.pending, [], []⟩⟩
  riskId := "risk-1"
  intentId := "intent-1"
  payload := goldPlanPayload
  createdAt := 10000
  updatedAt := 10000

/-- the state of its command, dispatched and then at `status` -/
def goldState (status : ExecutionCommandStatus) : ExecutionCommandState where
  commandId := "command-1"
  accountId := "account-1"
  planId := some "plan-1"
  legId := some "leg:intent-1:0"
  status := status
  deliveryAttempts := 1
  lastDeliveryError := none
  createdAt := 10000
  dispatchedAt := some 10500
  commandReceivedAt := none
  reconcilingAt := none
  completedAt := none
  updatedAt := 10500

def goldPartialFill : ExecutionEvent ℚ where
  executionId := "execution-1"
  commandId := "command-1"
  planId := some "plan-1"
  legId := some "leg:intent-1:0"
  accountId := "account-1"
  terminalId := some "terminal-1"
  clientId := none
  symbol := "XAUUSD"
  brokerSymbol := some "XAUUSD"
  status := .partiallyFilled
  brokerOrderId := some "order-1"
  brokerDealId := some "deal-1"
  positionTicket := none
  idempotencyKey := some "command-key-1"
  requestedLots := some (1 / 10)
  fillPrice := some 2000
  filledLots := some (1 / 20)
  remainingLots := some (1 / 20)
  eventAt := 12000
  filledAt := some 12000
  brokerFilledAt := none
  errorCode := none
  message := none

/-! ### two legs

The plan of `pairResult`: its command for gold is sent and filled, then that for silver. -/

def pairLegs : List (ExecutionLegDefinition ℚ) :=
  [{ goldLegDefinition with legId := "leg-gold", lots := some (1 / 20) },
    { legId := "leg-silver", symbol := "XAGUSD", action := .sell, lots := some (1 / 4), sl := some 26
      tp := none, ratio := 5, dependency := [] }]

def pairLegPayloads : List String :=
  ["\x7b\"action\":\"BUY\",\"dependency\":[],\"leg_id\":\"leg-gold\",\"lots\":0.05," ++
      "\"ratio\":1.0,\"sl\":1990.0,\"symbol\":\"XAUUSD\",\"tp\":2020.5\x7d",
    "\x7b\"action\":\"SELL\",\"dependency\":[],\"leg_id\":\"leg-silver\",\"lots\":0.25," ++
      "\"ratio\":5.0,\"sl\":26.0,\"symbol\":\"XAGUSD\",\"tp\":null\x7d"]

def pairPlanPayload : String :=
  "\x7b\"definition\":\x7b\"account_id\":\"account-1\",\"failure_policy\":\"cancel_all\"," ++
  "\"mode\":\"simultaneous\",\"plan_id\":\"plan-1\",\"strategy_id\":\"strategy-1\"\x7d," ++
  "\"intent_id\":\"intent-1\",\"legs\":[" ++ ",".intercalate pairLegPayloads ++
  "],\"risk_id\":\"risk-1\"\x7d"

def pairCodec : PayloadCodec String ℚ where
  plan := fun p =>
    if p = pairPlanPayload then some ⟨"risk-1", "intent-1", goldPlanDefinition, pairLegs⟩ else none
  leg := fun p => (pairLegPayloads.zip pairLegs).lookup p
  canonical := fun d => (pairLegs.zip pairLegPayloads).lookup d

def pairTables : Tables String ℚ where
  plans := goldTables.plans.map fun row => { row with payload := pairPlanPayload }
  legs := (pairLegs.zip pairLegPayloads).map fun leg =>
    { legId := leg.1.legId, planId := "plan-1", symbol := leg.1.symbol, action := leg.1.action
      status := .pending, payload := leg.2, updatedAt := 10000 }
  risk := fun id => .ok (if id = "risk-1" then some pairResult else none)
  intent := fun id => .ok (if id = "intent-1" then some ⟨pairRequest.intent, .accepted⟩ else none)
  planKey := by decide
  legKey := by decide

/-- the plan with its legs at these statuses -/
def pairPlan (statuses : List ExecutionLegStatus) (state : ExecutionPlanState) : ExecutionPlan ℚ :=
  ⟨goldPlanDefinition, pairLegs.zipWith (fun leg status => ⟨leg, ⟨status⟩⟩) statuses, state⟩

def pairStored (plan : ExecutionPlan ℚ) (updatedAt : Int) : StoredExecutionPlan String ℚ :=
  { goldStored with plan := plan, payload := pairPlanPayload, updatedAt := updatedAt }

theorem pair_sound : Sound pairCodec pairTables "plan-1"
    (pairStored (pairPlan [.pending, .pending] ⟨.pending, [], []⟩) 10000) where
  read := by decide +kernel
  fresh := by decide +kernel

def pairGold (status : ExecutionCommandStatus) : ExecutionCommandState :=
  { goldState status with legId := some "leg-gold" }

def pairSilver (status : ExecutionCommandStatus) : ExecutionCommandState :=
  { goldState status with commandId := "command-2", legId := some "leg-silver" }

def pairGoldFill : ExecutionEvent ℚ :=
  { goldPartialFill with
    legId := some "leg-gold", status := .filled, requestedLots := some (1 / 20)
    remainingLots := some 0 }

def pairInputs : List (ProjectionInput ℚ) :=
  [⟨[pairGold .dispatched, pairSilver .created], [], 11000⟩,
    ⟨[pairGold .filled, pairSilver .created], [pairGoldFill], 12000⟩]

theorem gold_dispatched_agrees :
    Agrees pairCodec (projectionRun pairCodec "plan-1" pairTables pairInputs)
      (pairStored (pairPlan [.filled, .pending] ⟨.partiallyDone, ["leg-gold"], []⟩) 12001)
      [pairGold .filled, pairSilver .dispatched] [pairGoldFill] 13000
      (pairPlan [.filled, .sent] ⟨.partiallyDone, ["leg-gold"], []⟩) := by
  obtain ⟨current, hread, hagrees⟩ := projection_agrees_iff pair_sound pairInputs
  have hadvanced : fetchExecutionPlanById pairCodec
      (projectionRun pairCodec "plan-1" pairTables pairInputs) "plan-1" = .ok (some
        (pairStored (pairPlan [.filled, .pending] ⟨.partiallyDone, ["leg-gold"], []⟩) 12001)) := by
    decide +kernel
  obtain rfl := Option.some.inj (Except.ok.inj (hadvanced.symm.trans hread))
  refine (hagrees _ _ _ _ (by decide +kernel) (by decide)).mpr ?_
  rintro ⟨leg, -, -, hevent | ⟨command, hcommand, hstatus⟩⟩
  · obtain ⟨event, hmem, hstatus⟩ := List.any_eq_true.mp hevent
    obtain rfl := List.mem_singleton.mp (List.mem_filter.mp hmem).1
    cases hstatus
  · have hmem : command ∈ [pairGold .filled, pairSilver .dispatched] :=
      (List.mem_filter.mp hcommand).1
    rcases List.mem_pair.mp hmem with rfl | rfl
    all_goals cases hstatus

/-- a command filled in part: the plan projects, and the row just written does not decode -/
theorem gold_partial_fill_corrupt :
    projectPlan goldStored.plan [goldState .partiallyFilled] [goldPartialFill]
      = .ok ⟨goldPlanDefinition, [⟨goldLegDefinition, ⟨.partiallyFilled⟩⟩],
          ⟨.partiallyDone, ["leg:intent-1:0"], []⟩⟩ ∧
    (persistPlanProjection goldCodec goldTables goldStored [goldState .partiallyFilled]
        [goldPartialFill] 12000).map (fun _ => ())
      = .error (.store (.corruptData "execution_plan" "plan-1" ("payload failed semantic " ++
          "validation: filled_legs must exactly match projected legs in plan order"))) ∧
    ∀ projected, ¬ Agrees goldCodec goldTables goldStored [goldState .partiallyFilled]
      [goldPartialFill] 12000 projected := by
  have herror : (persistPlanProjection goldCodec goldTables goldStored [goldState .partiallyFilled]
      [goldPartialFill] 12000).map (fun _ => ())
      = .error (.store (.corruptData "execution_plan" "plan-1" ("payload failed semantic " ++
          "validation: filled_legs must exactly match projected legs in plan order"))) := by
    decide +kernel
  refine ⟨by decide +kernel, herror, ?_⟩
  rintro projected ⟨next, final, hpersist, -⟩
  rw [hpersist] at herror
  cases herror

end Sinan.Store
