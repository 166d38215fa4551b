import Sinan.Store.Bundle
import Sinan.Store.Restate

/-!
# Lifecycle updates of a stored workflow

The four updates of a plan, a leg, a plan with its legs, and a command.  Whatever they do, the
immutable part of every plan stays readable as it was, no other table changes, and the state of a
command is either the same or a later one of the same command.
-/

set_option linter.unusedSectionVars false

namespace Sinan.Store

open Lib Execution

section
variable {P F : Type} [DecidableEq P] [DecidableEq F] [F64 F]

/-! ## the standalone updates -/

def requiredLeg (codec : PayloadCodec P F) (tables : Tables P F) (legId : LegId) :
    StoreCheck (StoredExecutionLeg P F) := do
  let found ← fetchExecutionLegById codec tables legId
  need found (.notFound "execution_leg" (legKey legId))

/-- `update_execution_plan_state_on` -/
def updateExecutionPlanState (codec : PayloadCodec P F) (tables : Tables P F)
    (update : PlanStateUpdate) : StoreCheck (Tables P F × StoredExecutionPlan P F) := do
  let key := lifecycleKey update.planId
  let current ← fetchRequiredPlan codec tables update.planId
  let proposed : ExecutionPlan F := { current.plan with state := update.state }
  invalidRecordOf "execution_plan_state" key
    (fun e : ExecutionPlanValidationError => e.field ++ " " ++ e.reason) proposed.validate
  reject (update.state.filledLegs ≠ current.plan.state.filledLegs ∨
      update.state.failedLegs ≠ current.plan.state.failedLegs)
    (.invalidRecord "execution_plan_state" key
      "filled_legs/failed_legs must be derived from persisted leg states")
  match updatePlanRow tables update with
  | .ok written => do
    let stored ← fetchRequiredPlan codec written update.planId
    return (written, stored)
  | .error _ => do
    let existing ← fetchRequiredPlan codec tables update.planId
    reject (existing.plan.state ≠ update.state ∨ existing.updatedAt ≠ update.updatedAt)
      (.staleWrite "execution_plan_state" key)
    return (tables, existing)

/-- `update_execution_leg_state_on` -/
def updateExecutionLegState (codec : PayloadCodec P F) (tables : Tables P F)
    (update : LegStateUpdate) : StoreCheck (Tables P F × StoredExecutionLeg P F) := do
  let key := legKey update.legId
  let current ← requiredLeg codec tables update.legId
  reject (current.planId ≠ update.planId) (.identityConflict "execution_leg_state" key)
  let proposed : ExecutionLeg F := { current.leg with state := update.state }
  invalidRecordOf "execution_leg_state" key
    (fun e : ExecutionPlanValidationError => e.field ++ " " ++ e.reason) proposed.validate
  let currentPlan ← fetchRequiredPlan codec tables update.planId
  let legs ← need (setLegState update.legId update.state currentPlan.plan.legs)
    (.corruptData "execution_plan" update.planId
      ("plan journal is missing leg " ++ update.legId))
  let projected : ExecutionPlan F := { currentPlan.plan with legs := legs }
  invalidRecordOf "execution_leg_state" key
    (fun e : ExecutionPlanValidationError =>
      "standalone leg update would make the plan projection inconsistent; " ++
      "use update_execution_lifecycle: " ++ e.field ++ " " ++ e.reason) projected.validate
  match updateLegRow tables update with
  | .ok written => do
    let stored ← requiredLeg codec written update.legId
    return (written, stored)
  | .error _ => do
    let existing ← requiredLeg codec tables update.legId
    reject (existing.leg.state ≠ update.state ∨ existing.updatedAt ≠ update.updatedAt)
      (if existing.planId ≠ update.planId then .identityConflict "execution_leg_state" key
        else .staleWrite "execution_leg_state" key)
    return (tables, existing)

/-! ## what an update of a plan does to the rows -/

/-- a row without its status and version -/
def PlanRow.fixed (row : PlanRow P) : PlanRow P := { row with status := .pending, updatedAt := 0 }

def LegRow.fixed (row : LegRow P) : LegRow P := { row with status := .pending, updatedAt := 0 }

/-- `g` keeps the immutable part of every row, and leaves the rows of the other plans -/
def Restates {ρ : Type} (fixed : ρ → ρ) (planOf : ρ → PlanId) (planId : PlanId) (g : ρ → ρ) : Prop :=
  ∀ row, fixed (g row) = fixed row ∧ planOf (g row) = planOf row ∧ (planOf row ≠ planId → g row = row)

theorem Restates.id {ρ : Type} (fixed : ρ → ρ) (planOf : ρ → PlanId) (planId : PlanId) :
    Restates fixed planOf planId id := fun _ => ⟨rfl, rfl, fun _ => rfl⟩

theorem Restates.comp {ρ : Type} {fixed : ρ → ρ} {planOf : ρ → PlanId} {planId : PlanId}
    {g h : ρ → ρ} (hg : Restates fixed planOf planId g) (hh : Restates fixed planOf planId h) :
    Restates fixed planOf planId (h ∘ g) := by
  intro row
  obtain ⟨hfixed, hplan, hother⟩ := hg row
  obtain ⟨hfixed', hplan', hother'⟩ := hh (g row)
  refine ⟨hfixed'.trans hfixed, hplan'.trans hplan, fun hne => ?_⟩
  show h (g row) = row
  rw [hother' (hplan ▸ hne), hother hne]

/-- some rows of one plan are restated; every other row stays -/
structure RowsRestated (planId : PlanId) (tables next : Tables P F) : Prop where
  plans : ∃ g, next.plans = tables.plans.map g ∧ Restates PlanRow.fixed PlanRow.planId planId g
  legs : ∃ g, next.legs = tables.legs.map g ∧ Restates LegRow.fixed LegRow.planId planId g
  risk : next.risk = tables.risk
  intent : next.intent = tables.intent

theorem RowsRestated.refl (planId : PlanId) (tables : Tables P F) :
    RowsRestated planId tables tables where
  plans := ⟨id, (List.map_id _).symm, Restates.id _ _ _⟩
  legs := ⟨id, (List.map_id _).symm, Restates.id _ _ _⟩
  risk := rfl
  intent := rfl

theorem RowsRestated.trans {planId : PlanId} {a b c : Tables P F} (hab : RowsRestated planId a b)
    (hbc : RowsRestated planId b c) : RowsRestated planId a c := by
  obtain ⟨g, hg, hgs⟩ := hab.plans
  obtain ⟨g', hg', hgs'⟩ := hbc.plans
  obtain ⟨h, hh, hhs⟩ := hab.legs
  obtain ⟨h', hh', hhs'⟩ := hbc.legs
  refine ⟨⟨g' ∘ g, ?_, hgs.comp hgs'⟩, ⟨h' ∘ h, ?_, hhs.comp hhs'⟩, hbc.risk.trans hab.risk,
    hbc.intent.trans hab.intent⟩
  · rw [hg', hg, List.map_map]
  · rw [hh', hh, List.map_map]

theorem LegStateUpdate.write_restates (u : LegStateUpdate) :
    Restates (LegRow.fixed (P := P)) LegRow.planId u.planId u.write := by
  intro row
  unfold LegStateUpdate.write
  by_cases hhit : u.hits row = true
  · rw [if_pos hhit]
    refine ⟨rfl, rfl, fun hne => ?_⟩
    simp only [LegStateUpdate.hits, Bool.and_eq_true, beq_iff_eq] at hhit
    exact absurd hhit.1.1.1.1 hne
  · rw [if_neg hhit]
    exact ⟨rfl, rfl, fun _ => rfl⟩

theorem PlanStateUpdate.write_restates (u : PlanStateUpdate) :
    Restates (PlanRow.fixed (P := P)) PlanRow.planId u.planId u.write := by
  intro row
  unfold PlanStateUpdate.write
  by_cases hhit : u.hits row = true
  · rw [if_pos hhit]
    refine ⟨rfl, rfl, fun hne => ?_⟩
    simp only [PlanStateUpdate.hits, Bool.and_eq_true, beq_iff_eq] at hhit
    exact absurd hhit.1.1.1 hne
  · rw [if_neg hhit]
    exact ⟨rfl, rfl, fun _ => rfl⟩

theorem updateLegRow_restated {tables next : Tables P F} {u : LegStateUpdate}
    (h : updateLegRow tables u = .ok next) : RowsRestated u.planId tables next := by
  simp only [updateLegRow, bind_ok, exists_unit, pure_ok] at h
  obtain ⟨-, rfl⟩ := h
  exact ⟨⟨id, (List.map_id _).symm, Restates.id _ _ _⟩, ⟨u.write, rfl, u.write_restates⟩, rfl, rfl⟩

theorem updatePlanRow_restated {tables next : Tables P F} {u : PlanStateUpdate}
    (h : updatePlanRow tables u = .ok next) : RowsRestated u.planId tables next := by
  simp only [updatePlanRow, bind_ok, exists_unit, pure_ok] at h
  obtain ⟨-, rfl⟩ := h
  exact ⟨⟨u.write, rfl, u.write_restates⟩, ⟨id, (List.map_id _).symm, Restates.id _ _ _⟩, rfl, rfl⟩

theorem updateLegRows_restated {us : List LegStateUpdate} {planId : PlanId}
    (hus : ∀ u ∈ us, u.planId = planId) {tables next : Tables P F}
    (h : updateLegRows tables us = .ok next) : RowsRestated planId tables next := by
  induction us generalizing tables with
  | nil =>
    cases h
    exact RowsRestated.refl planId _
  | cons u us ih =>
    simp only [updateLegRows, bind_ok] at h
    obtain ⟨mid, hfirst, hrest⟩ := h
    have hmid := updateLegRow_restated hfirst
    rw [hus u (List.mem_cons_self ..)] at hmid
    exact hmid.trans (ih (fun v hv => hus v (List.mem_cons_of_mem u hv)) hrest)

/-! ## reading after an update -/

section
variable {codec : PayloadCodec P F} {planId : PlanId} {tables next : Tables P F} {other : PlanId}

theorem RowsRestated.find_plan (h : RowsRestated planId tables next) (other : PlanId) :
    ∃ g, Restates PlanRow.fixed PlanRow.planId planId g ∧
      (next.plans.find? fun row => row.planId == other) =
        (tables.plans.find? fun row => row.planId == other).map g := by
  obtain ⟨g, hplans, hg⟩ := h.plans
  have hkey : (fun row : PlanRow P => row.planId == other) ∘ g = fun row => row.planId == other :=
    funext fun row => congrArg (· == other) (hg row).2.1
  exact ⟨g, hg, by rw [hplans, List.find?_map, hkey]⟩

theorem RowsRestated.plan_legs (h : RowsRestated planId tables next) (hother : other ≠ planId) :
    planLegRows next other = planLegRows tables other := by
  obtain ⟨g, hlegs, hg⟩ := h.legs
  have hkey : (fun row : LegRow P => row.planId == other) ∘ g = fun row => row.planId == other :=
    funext fun row => congrArg (· == other) (hg row).2.1
  unfold planLegRows
  rw [hlegs, List.filter_map, hkey]
  refine (List.map_congr_left fun row hrow => ?_).trans (List.map_id _)
  have hplan : row.planId = other := eq_of_beq (List.mem_filter.mp hrow).2
  exact (hg row).2.2 (hplan ▸ hother)

theorem RowsRestated.fetch_other (h : RowsRestated planId tables next) (hother : other ≠ planId) :
    fetchExecutionPlanById codec next other = fetchExecutionPlanById codec tables other := by
  obtain ⟨g, hg, hfind⟩ := h.find_plan other
  unfold fetchExecutionPlanById
  rw [hfind]
  cases hrow : tables.plans.find? fun row => row.planId == other with
  | none => rfl
  | some row =>
    have hplan : row.planId = other := (find_key hrow).2
    have hsame : g row = row := (hg row).2.2 (hplan ▸ hother)
    have hlegs : planLegRows next row.planId = planLegRows tables row.planId := by
      rw [hplan, h.plan_legs hother]
    show (executionPlanFromRow codec next (g row) >>= fun stored => pure (some stored)) =
      (executionPlanFromRow codec tables row >>= fun stored => pure (some stored))
    rw [hsame]
    unfold executionPlanFromRow storedLegs validatePlanParents
    rw [hlegs, h.risk, h.intent]

/-- two versions of a plan differ in their projected states only -/
structure SamePlan (s s' : StoredExecutionPlan P F) : Prop where
  definition : s'.plan.definition = s.plan.definition
  legs : s'.plan.legs.map ExecutionLeg.definition = s.plan.legs.map ExecutionLeg.definition
  riskId : s'.riskId = s.riskId
  intentId : s'.intentId = s.intentId
  payload : s'.payload = s.payload
  createdAt : s'.createdAt = s.createdAt

theorem SamePlan.refl (s : StoredExecutionPlan P F) : SamePlan s s :=
  ⟨rfl, rfl, rfl, rfl, rfl, rfl⟩

theorem SamePlan.trans {a b c : StoredExecutionPlan P F} (hab : SamePlan a b) (hbc : SamePlan b c) :
    SamePlan a c :=
  ⟨hbc.definition.trans hab.definition, hbc.legs.trans hab.legs, hbc.riskId.trans hab.riskId,
    hbc.intentId.trans hab.intentId, hbc.payload.trans hab.payload,
    hbc.createdAt.trans hab.createdAt⟩

variable {legs : List (ExecutionLeg F)}

theorem matchJournalLegs_definitions {key : String} {stored : List (StoredExecutionLeg P F)}
    {journal : List (ExecutionLegDefinition F)}
    (hstored : ∀ s ∈ stored, codec.leg s.payload = some s.leg.definition)
    (h : matchJournalLegs codec key stored journal = .ok legs) :
    legs.map (fun leg => some leg.definition) =
      journal.map fun expected => (codec.canonical expected).bind codec.leg := by
  induction journal generalizing stored legs with
  | nil =>
    cases h
    rfl
  | cons expected journal ih =>
    simp only [matchJournalLegs, bind_ok, exists_unit, need_ok, reject_ok, pure_ok, not_not,
      ne_eq] at h
    obtain ⟨found, hfound, payload, hpayload, hsame, others, hothers, rfl⟩ := h
    have hrest := ih (fun s hs => hstored s (List.mem_filter.mp hs).1) hothers
    rw [List.map_cons, List.map_cons, hrest, hpayload, Option.bind_some, ← hsame,
      hstored found (find_key hfound).1]

theorem Decodes.definitions {row : PlanRow P} {journal : ExecutionPlanJournal F}
    {rows : List (StoredExecutionLeg P F)} (h : Decodes codec tables row journal rows legs) :
    legs.map (fun leg => some leg.definition) =
      journal.legs.map fun expected => (codec.canonical expected).bind codec.leg := by
  refine matchJournalLegs_definitions (fun s hs => ?_) h.matched
  obtain ⟨zs, hzs, hforall⟩ := collectApart_ok h.stored
  rw [List.nil_append] at hzs
  obtain ⟨r, -, hdecode⟩ := forall₂_mem_right hforall (hzs ▸ hs)
  have hleg := (planLegFromRow_ok.mp hdecode).1
  have hpayload : s.payload = r.payload := by rw [hleg.same]
  rw [hpayload]
  exact hleg.payload

variable {s : StoredExecutionPlan P F}

theorem samePlan_of_rows {row row' : PlanRow P} {s' : StoredExecutionPlan P F}
    (hfixed : row'.fixed = row.fixed) (h : executionPlanFromRow codec tables row = .ok s)
    (h' : executionPlanFromRow codec next row' = .ok s') : SamePlan s s' := by
  obtain ⟨journal, rows, legs, hdecodes, rfl⟩ := executionPlanFromRow_ok.mp h
  obtain ⟨journal', rows', legs', hdecodes', rfl⟩ := executionPlanFromRow_ok.mp h'
  have hpayload : row'.fixed.payload = row.fixed.payload := congrArg PlanRow.payload hfixed
  have hcreated : row'.fixed.createdAt = row.fixed.createdAt := congrArg PlanRow.createdAt hfixed
  simp only [PlanRow.fixed] at hpayload hcreated
  have hjournal : journal' = journal := by
    have hread := hdecodes'.payload
    rw [hpayload, hdecodes.payload] at hread
    exact (Option.some.inj hread).symm
  subst hjournal
  refine ⟨rfl, ?_, rfl, rfl, hpayload, hcreated⟩
  have hsome : (legs'.map ExecutionLeg.definition).map some =
      (legs.map ExecutionLeg.definition).map some := by
    have hdefinitions := hdecodes'.definitions.trans hdecodes.definitions.symm
    rw [List.map_map, List.map_map]
    exact hdefinitions
  exact List.map_injective_iff.mpr (Option.some_injective _) hsome

theorem RowsRestated.fetch_same (h : RowsRestated planId tables next) {s' : StoredExecutionPlan P F}
    (hs : fetchExecutionPlanById codec tables other = .ok (some s))
    (hs' : fetchExecutionPlanById codec next other = .ok (some s')) : SamePlan s s' := by
  obtain ⟨row, hrow, hread⟩ := fetchExecutionPlanById_ok.mp hs
  obtain ⟨row', hrow', hread'⟩ := fetchExecutionPlanById_ok.mp hs'
  obtain ⟨g, hg, hfind⟩ := h.find_plan other
  rw [hfind, hrow] at hrow'
  obtain rfl := Option.some.inj hrow'
  exact samePlan_of_rows (hg row).1 hread hread'

/-! ## every accepted update -/

/-- every plan that could be read can be read, and is the same plan -/
def PlansKept (codec : PayloadCodec P F) (tables next : Tables P F) : Prop :=
  ∀ planId s, fetchExecutionPlanById codec tables planId = .ok (some s) →
    ∃ s', fetchExecutionPlanById codec next planId = .ok (some s') ∧ SamePlan s s'

theorem PlansKept.refl (tables : Tables P F) : PlansKept codec tables tables :=
  fun _ s hs => ⟨s, hs, SamePlan.refl s⟩

variable {stored : StoredExecutionPlan P F}

theorem RowsRestated.kept (h : RowsRestated planId tables next)
    (hread : fetchExecutionPlanById codec next planId = .ok (some stored)) :
    PlansKept codec tables next := by
  intro other s hs
  by_cases hother : other = planId
  · subst hother
    exact ⟨stored, hread, h.fetch_same hs hread⟩
  · exact ⟨s, (h.fetch_other hother).trans hs, SamePlan.refl s⟩

/-- every plan row is still there, up to its status and version -/
def PlanRowsKept (plans next : List (PlanRow P)) : Prop :=
  ∀ row ∈ plans, ∃ row' ∈ next, row'.fixed = row.fixed

theorem PlanRowsKept.refl (plans : List (PlanRow P)) : PlanRowsKept plans plans :=
  fun row hrow => ⟨row, hrow, rfl⟩

theorem PlanRowsKept.trans {a b c : List (PlanRow P)} (hab : PlanRowsKept a b)
    (hbc : PlanRowsKept b c) : PlanRowsKept a c := by
  intro row hrow
  obtain ⟨row', hrow', hfixed⟩ := hab row hrow
  obtain ⟨row'', hrow'', hfixed'⟩ := hbc row' hrow'
  exact ⟨row'', hrow'', hfixed'.trans hfixed⟩

theorem RowsRestated.planRows (h : RowsRestated planId tables next) :
    PlanRowsKept tables.plans next.plans := by
  obtain ⟨g, hplans, hg⟩ := h.plans
  intro row hrow
  exact ⟨g row, hplans ▸ List.mem_map_of_mem hrow, (hg row).1⟩

/-- the tables of an accepted update of plan rows -/
structure PlanUpdated (codec : PayloadCodec P F) (tables next : Tables P F) : Prop where
  kept : PlansKept codec tables next
  planRows : PlanRowsKept tables.plans next.plans
  risk : next.risk = tables.risk
  intent : next.intent = tables.intent

/-- what an accepted update leaves: the tables as they were, or with the rows of one plan restated that
is read back -/
def PlanRestated (codec : PayloadCodec P F) (tables next : Tables P F) : Prop :=
  next = tables ∨ ∃ planId stored, RowsRestated planId tables next ∧
    fetchExecutionPlanById codec next planId = .ok (some stored)

theorem PlanRestated.updated (h : PlanRestated codec tables next) :
    PlanUpdated codec tables next := by
  rcases h with rfl | ⟨planId, stored, hrows, hread⟩
  · exact ⟨PlansKept.refl next, PlanRowsKept.refl _, rfl, rfl⟩
  · exact ⟨hrows.kept hread, hrows.planRows, hrows.risk, hrows.intent⟩

theorem PlanRestated.planIds (h : PlanRestated codec tables next) :
    next.plans.map PlanRow.planId = tables.plans.map PlanRow.planId := by
  rcases h with rfl | ⟨planId, stored, hrows, -⟩
  · rfl
  · obtain ⟨g, hplans, hg⟩ := hrows.plans
    rw [hplans, List.map_map]
    exact List.map_congr_left fun row _ => (hg row).2.1

theorem fetchRequiredPlan_read (h : fetchRequiredPlan codec tables planId = .ok stored) :
    fetchExecutionPlanById codec tables planId = .ok (some stored) := by
  simp only [fetchRequiredPlan, bind_ok, need_ok] at h
  obtain ⟨_, hread, rfl⟩ := h
  exact hread

theorem updateExecutionPlanState_restated {u : PlanStateUpdate}
    (h : updateExecutionPlanState codec tables u = .ok (next, s)) :
    PlanRestated codec tables next := by
  simp only [updateExecutionPlanState, bind_ok, exists_unit] at h
  obtain ⟨_, -, -, -, h⟩ := h
  cases hwrite : updatePlanRow tables u with
  | ok written =>
    simp only [hwrite, bind_ok, pure_ok, Prod.mk.injEq] at h
    obtain ⟨_, hread, rfl, -⟩ := h
    exact .inr ⟨_, _, updatePlanRow_restated hwrite, fetchRequiredPlan_read hread⟩
  | error e =>
    simp only [hwrite, bind_ok, exists_unit, pure_ok, Prod.mk.injEq] at h
    obtain ⟨_, -, -, rfl, -⟩ := h
    exact .inl rfl

theorem updateExecutionLifecycle_restated {u : ExecutionLifecycleUpdate}
    (h : updateExecutionLifecycle codec tables u = .ok (next, s)) :
    PlanRestated codec tables next := by
  simp only [updateExecutionLifecycle, updateExecutionLifecycleInSavepoint, bind_ok,
    exists_unit] at h
  obtain ⟨hshape, current, -, stored, -, h⟩ := h
  have howned : ∀ leg ∈ u.legs, leg.planId = u.plan.planId := by
    simp only [validateExecutionLifecycleUpdateShape, bind_ok, exists_unit, eachApart_ok] at hshape
    intro leg hleg
    have hfirst := (hshape.2.2.2 leg hleg).1
    rw [reject_ok, not_not] at hfirst
    exact hfirst
  by_cases hreplay : exactReplay current stored u = true
  · rw [if_pos hreplay] at h
    cases h
    exact .inl rfl
  · rw [if_neg hreplay] at h
    simp only [bind_ok, exists_unit, pure_ok, Prod.mk.injEq] at h
    obtain ⟨-, mid, hlegs, written, hplan, final, hread, rfl, -⟩ := h
    have hrows := (updateLegRows_restated howned hlegs).trans (updatePlanRow_restated hplan)
    exact .inr ⟨_, _, hrows, fetchRequiredPlan_read hread⟩

theorem requiredLeg_ok {legId : LegId} {leg : StoredExecutionLeg P F}
    (h : requiredLeg codec tables legId = .ok leg) :
    ∃ row parent, (tables.legs.find? fun row => row.legId == legId) = some row ∧
      leg.planId = row.planId ∧
      fetchExecutionPlanById codec tables leg.planId = .ok (some parent) := by
  simp only [requiredLeg, bind_ok, need_ok] at h
  obtain ⟨_, h, rfl⟩ := h
  unfold fetchExecutionLegById at h
  cases hrow : tables.legs.find? fun row => row.legId == legId with
  | none =>
    rw [hrow] at h
    cases h
  | some row =>
    simp only [hrow, bind_ok, need_ok, exists_unit, pure_ok, Option.some.injEq] at h
    obtain ⟨decoded, hdecoded, _, hparent, parent, rfl, -, rfl⟩ := h
    exact ⟨row, parent, rfl, (executionLegFromRow_ok.mp hdecoded).planId, hparent⟩

theorem updateExecutionLegState_restated {u : LegStateUpdate} {s : StoredExecutionLeg P F}
    (h : updateExecutionLegState codec tables u = .ok (next, s)) : PlanRestated codec tables next := by
  simp only [updateExecutionLegState, bind_ok, exists_unit, reject_ok, not_not, ne_eq] at h
  obtain ⟨current, hcurrent, howner, -, _, -, _, -, -, h⟩ := h
  cases hwrite : updateLegRow tables u with
  | error e =>
    simp only [hwrite, bind_ok, exists_unit, pure_ok, Prod.mk.injEq] at h
    obtain ⟨_, -, -, rfl, -⟩ := h
    exact .inl rfl
  | ok written =>
    simp only [hwrite, bind_ok, pure_ok, Prod.mk.injEq] at h
    obtain ⟨leg, hleg, rfl, -⟩ := h
    have hrows := updateLegRow_restated hwrite
    obtain ⟨row, -, hrow, hplan, -⟩ := requiredLeg_ok hcurrent
    obtain ⟨row', parent, hrow', hplan', hread⟩ := requiredLeg_ok hleg
    have hmapped : row' = u.write row := by
      have hlegs : written.legs = tables.legs.map u.write := by
        simp only [updateLegRow, bind_ok, exists_unit, pure_ok] at hwrite
        obtain ⟨-, rfl⟩ := hwrite
        rfl
      have hkey : (fun r : LegRow P => r.legId == u.legId) ∘ u.write = fun r => r.legId == u.legId :=
        funext fun r => congrArg (· == u.legId) (u.write_legId r)
      rw [hlegs, List.find?_map, hkey, hrow] at hrow'
      exact (Option.some.inj hrow').symm
    rw [hplan', hmapped, (u.write_restates row).2.1, ← hplan, howner] at hread
    exact .inr ⟨_, _, hrows, hread⟩

end

/-! ## versions of a command state -/

/-- what `same_command_state_identity` compares -/
def stateIdentity (s : ExecutionCommandState) :
    CommandId × AccountId × Option PlanId × Option LegId × Int :=
  (s.commandId, s.accountId, s.planId, s.legId, s.createdAt)

variable {s' : ExecutionCommandState}

theorem sameCommandStateIdentity_iff {s : ExecutionCommandState} :
    sameCommandStateIdentity s s' = true ↔ stateIdentity s = stateIdentity s' := by
  simp only [sameCommandStateIdentity, stateIdentity, Bool.and_eq_true, beq_iff_eq, Prod.mk.injEq,
    and_assoc]

theorem acceptsState_iff {s : ExecutionCommandState} :
    acceptsState s s' = true ↔
      s = s' ∨ (stateIdentity s = stateIdentity s' ∧ s'.updatedAt < s.updatedAt) := by
  simp only [acceptsState, Bool.or_eq_true, Bool.and_eq_true, decide_eq_true_eq,
    sameCommandStateIdentity_iff, gt_iff_lt]

theorem acceptsState_refl (s : ExecutionCommandState) : acceptsState s s = true :=
  acceptsState_iff.mpr (.inl rfl)

theorem acceptsState_trans {a b c : ExecutionCommandState} (hab : acceptsState a b = true)
    (hbc : acceptsState b c = true) : acceptsState a c = true := by
  rw [acceptsState_iff] at *
  rcases hab with rfl | ⟨hid, hlt⟩
  · exact hbc
  · rcases hbc with rfl | ⟨hid', hlt'⟩
    · exact .inr ⟨hid, hlt⟩
    · exact .inr ⟨hid.trans hid', hlt'.trans hlt⟩

theorem identity_of_accepts {s : ExecutionCommandState} (h : acceptsState s s' = true) :
    stateIdentity s = stateIdentity s' := by
  rcases acceptsState_iff.mp h with rfl | ⟨hid, -⟩
  · rfl
  · exact hid

theorem updatedAt_of_accepts {s : ExecutionCommandState} (h : acceptsState s s' = true) :
    s'.updatedAt ≤ s.updatedAt := by
  rcases acceptsState_iff.mp h with rfl | ⟨-, hlt⟩
  · exact le_rfl
  · exact hlt.le

/-- every state is still there, as it was or in a later version -/
def StatesAdvanced (states next : StateTable) : Prop :=
  ∀ commandId s, states.get commandId = some s →
    ∃ s', next.get commandId = some s' ∧ acceptsState s' s = true

theorem StatesAdvanced.refl (states : StateTable) : StatesAdvanced states states :=
  fun _ s hs => ⟨s, hs, acceptsState_refl s⟩

theorem StatesAdvanced.trans {a b c : StateTable} (hab : StatesAdvanced a b)
    (hbc : StatesAdvanced b c) : StatesAdvanced a c := by
  intro commandId s hs
  obtain ⟨s', hs', haccepts⟩ := hab commandId s hs
  obtain ⟨s'', hs'', haccepts'⟩ := hbc commandId s' hs'
  exact ⟨s'', hs'', acceptsState_trans haccepts' haccepts⟩

theorem updateExecutionCommandState_advanced {states next : StateTable} {u : CommandStateUpdate}
    (h : updateExecutionCommandState states u = .ok next) : StatesAdvanced states next := by
  simp only [updateExecutionCommandState, bind_ok, need_ok] at h
  obtain ⟨row, hrow, h⟩ := h
  by_cases hhit : u.hits row = true
  · rw [if_pos hhit, need_ok] at h
    simp only [CommandStateUpdate.hits, Bool.and_eq_true, decide_eq_true_eq,
      sameCommandStateIdentity_iff] at hhit
    obtain ⟨⟨⟨hid, -⟩, -⟩, hlater⟩ := hhit
    intro commandId s hs
    rw [Table.get_put h hrow]
    by_cases hkey : u.state.commandId = commandId
    · rw [if_pos hkey]
      subst hkey
      rw [hrow] at hs
      obtain rfl := Option.some.inj hs
      exact ⟨u.state, rfl, acceptsState_iff.mpr (.inr ⟨hid.symm, hlater⟩)⟩
    · rw [if_neg hkey]
      exact ⟨s, hs, acceptsState_refl s⟩
  · rw [if_neg hhit] at h
    simp only [bind_ok, exists_unit, pure_ok] at h
    obtain ⟨-, -, rfl⟩ := h
    exact StatesAdvanced.refl states

/-! ## runs of updates -/

def WorkflowTables.withLifecycle (t : WorkflowTables P F) (next : Tables P F) :
    WorkflowTables P F :=
  { t with
    plans := ⟨next.plans, next.planKey, by simp only [List.filterMap_none, List.nodup_nil]⟩
    legs := ⟨next.legs, next.legKey, by simp only [List.filterMap_none, List.nodup_nil]⟩ }

inductive LifecycleCall where
  | plan (update : PlanStateUpdate)
  | leg (update : LegStateUpdate)
  | lifecycle (update : ExecutionLifecycleUpdate)
  | command (update : CommandStateUpdate)
  deriving DecidableEq

/-- the tables after an accepted update -/
def LifecycleCall.apply (codec : JournalCodec P F) (t : WorkflowTables P F) :
    LifecycleCall → StoreCheck (WorkflowTables P F)
  | .plan u => do
    let out ← updateExecutionPlanState codec.toPayloadCodec t.lifecycle u
    return t.withLifecycle out.1
  | .leg u => do
    let out ← updateExecutionLegState codec.toPayloadCodec t.lifecycle u
    return t.withLifecycle out.1
  | .lifecycle u => do
    let out ← updateExecutionLifecycle codec.toPayloadCodec t.lifecycle u
    return t.withLifecycle out.1
  | .command u => do
    let states ← updateExecutionCommandState t.states u
    return { t with states }

/-- a sequence of updates, all of them accepted -/
def lifecycleRun (codec : JournalCodec P F) (t : WorkflowTables P F) (calls : List LifecycleCall) :
    StoreCheck (WorkflowTables P F) :=
  calls.foldlM (LifecycleCall.apply codec) t

/-- what accepted updates leave of the tables -/
structure Progressed (codec : JournalCodec P F) (t next : WorkflowTables P F) : Prop where
  intents : next.intents = t.intents
  risks : next.risks = t.risks
  commands : next.commands = t.commands
  plans : PlansKept codec.toPayloadCodec t.lifecycle next.lifecycle
  planRows : PlanRowsKept t.plans.rows next.plans.rows
  states : StatesAdvanced t.states next.states

section
variable {codec : JournalCodec P F} {t next : WorkflowTables P F}

theorem Progressed.refl (t : WorkflowTables P F) : Progressed codec t t :=
  ⟨rfl, rfl, rfl, PlansKept.refl _, PlanRowsKept.refl _, StatesAdvanced.refl _⟩

theorem PlansKept.trans {codec : PayloadCodec P F} {a b c : Tables P F} (hab : PlansKept codec a b)
    (hbc : PlansKept codec b c) : PlansKept codec a c := by
  intro planId s hs
  obtain ⟨s', hs', hsame⟩ := hab planId s hs
  obtain ⟨s'', hs'', hsame'⟩ := hbc planId s' hs'
  exact ⟨s'', hs'', hsame.trans hsame'⟩

theorem Progressed.trans {a b c : WorkflowTables P F} (hab : Progressed codec a b)
    (hbc : Progressed codec b c) : Progressed codec a c :=
  ⟨hbc.intents.trans hab.intents, hbc.risks.trans hab.risks, hbc.commands.trans hab.commands,
    hab.plans.trans hbc.plans, hab.planRows.trans hbc.planRows, hab.states.trans hbc.states⟩

theorem PlanUpdated.progressed {tables : Tables P F}
    (h : PlanUpdated codec.toPayloadCodec t.lifecycle tables) :
    Progressed codec t (t.withLifecycle tables) := by
  refine ⟨rfl, rfl, rfl, ?_, h.planRows, StatesAdvanced.refl _⟩
  have hsame : (t.withLifecycle tables).lifecycle = tables := by
    obtain ⟨plans, legs, risk, intent, planKey, legKey⟩ := tables
    obtain rfl : risk = t.lifecycle.risk := h.risk
    obtain rfl : intent = t.lifecycle.intent := h.intent
    rfl
  rw [hsame]
  exact h.kept

theorem LifecycleCall.apply_progressed {call : LifecycleCall} (h : call.apply codec t = .ok next) :
    Progressed codec t next := by
  cases call with
  | plan u =>
    simp only [LifecycleCall.apply, bind_ok, pure_ok] at h
    obtain ⟨⟨tables, s⟩, hupdate, rfl⟩ := h
    exact (updateExecutionPlanState_restated hupdate).updated.progressed
  | leg u =>
    simp only [LifecycleCall.apply, bind_ok, pure_ok] at h
    obtain ⟨⟨tables, s⟩, hupdate, rfl⟩ := h
    exact (updateExecutionLegState_restated hupdate).updated.progressed
  | lifecycle u =>
    simp only [LifecycleCall.apply, bind_ok, pure_ok] at h
    obtain ⟨⟨tables, s⟩, hupdate, rfl⟩ := h
    exact (updateExecutionLifecycle_restated hupdate).updated.progressed
  | command u =>
    simp only [LifecycleCall.apply, bind_ok, pure_ok] at h
    obtain ⟨states, hupdate, rfl⟩ := h
    exact ⟨rfl, rfl, rfl, PlansKept.refl _, PlanRowsKept.refl _,
      updateExecutionCommandState_advanced hupdate⟩

theorem LifecycleCall.apply_planIds {call : LifecycleCall} (h : call.apply codec t = .ok next) :
    next.plans.rows.map PlanRow.planId = t.plans.rows.map PlanRow.planId := by
  cases call with
  | plan u =>
    simp only [LifecycleCall.apply, bind_ok, pure_ok] at h
    obtain ⟨⟨tables, s⟩, hupdate, rfl⟩ := h
    exact (updateExecutionPlanState_restated hupdate).planIds
  | leg u =>
    simp only [LifecycleCall.apply, bind_ok, pure_ok] at h
    obtain ⟨⟨tables, s⟩, hupdate, rfl⟩ := h
    exact (updateExecutionLegState_restated hupdate).planIds
  | lifecycle u =>
    simp only [LifecycleCall.apply, bind_ok, pure_ok] at h
    obtain ⟨⟨tables, s⟩, hupdate, rfl⟩ := h
    exact (updateExecutionLifecycle_restated hupdate).planIds
  | command u =>
    simp only [LifecycleCall.apply, bind_ok, pure_ok] at h
    obtain ⟨states, -, rfl⟩ := h
    rfl

theorem lifecycleRun_progressed {calls : List LifecycleCall}
    (h : lifecycleRun codec t calls = .ok next) : Progressed codec t next :=
  foldlM_related Progressed.refl Progressed.trans (fun _ _ _ => LifecycleCall.apply_progressed) h

end

end

end Sinan.Store
