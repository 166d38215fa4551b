import Sinan.Store.Lifecycle

/-!
# Reading back what an update wrote

A lifecycle update changes the status and the version of some leg rows and of the plan row, and
nothing else.  `restateRow` is that change on a leg row, `restateStored` and `restateLeg` on what it
decodes to; decoding commutes with it.
-/

set_option linter.unusedSectionVars false

namespace Sinan.Store

open Lib Execution

section
variable {P F : Type} [DecidableEq P] [DecidableEq F] [F64 F]

/-- the update of a leg, if there is one -/
def updateOf (us : List LegStateUpdate) (legId : LegId) : Option LegStateUpdate :=
  us.find? fun u => u.legId == legId

def restateRow (us : List LegStateUpdate) (row : LegRow P) : LegRow P :=
  match updateOf us row.legId with
  | some u => { row with status := u.state.status, updatedAt := u.updatedAt }
  | none => row

def restateLeg (us : List LegStateUpdate) (leg : ExecutionLeg F) : ExecutionLeg F :=
  match updateOf us leg.definition.legId with
  | some u => { leg with state := u.state }
  | none => leg

def restateStored (us : List LegStateUpdate) (s : StoredExecutionLeg P F) :
    StoredExecutionLeg P F :=
  match updateOf us s.legId with
  | some u => { s with leg := { s.leg with state := u.state }, updatedAt := u.updatedAt }
  | none => s

@[simp] theorem restateRow_planId (us : List LegStateUpdate) (row : LegRow P) :
    (restateRow us row).planId = row.planId := by
  unfold restateRow
  split <;> rfl

@[simp] theorem restateLeg_definition (us : List LegStateUpdate) (leg : ExecutionLeg F) :
    (restateLeg us leg).definition = leg.definition := by
  unfold restateLeg
  split <;> rfl

@[simp] theorem restateStored_legId (us : List LegStateUpdate) (s : StoredExecutionLeg P F) :
    (restateStored us s).legId = s.legId := by
  unfold restateStored
  split <;> rfl

@[simp] theorem restateStored_payload (us : List LegStateUpdate) (s : StoredExecutionLeg P F) :
    (restateStored us s).payload = s.payload := by
  unfold restateStored
  split <;> rfl

theorem restateStored_leg (us : List LegStateUpdate) (s : StoredExecutionLeg P F) :
    (restateStored us s).leg = restateLeg us s.leg := by
  unfold restateStored restateLeg StoredExecutionLeg.legId
  split <;> rfl

/-! ## one update after the other -/

variable {u : LegStateUpdate} {us : List LegStateUpdate} {legs : List (ExecutionLeg F)}

theorem updateOf_cons_self (u : LegStateUpdate) (us : List LegStateUpdate) :
    updateOf (u :: us) u.legId = some u := by
  unfold updateOf
  rw [List.find?_cons, beq_self_eq_true]

theorem updateOf_cons_ne {legId : LegId} (us : List LegStateUpdate) (h : u.legId ≠ legId) :
    updateOf (u :: us) legId = updateOf us legId := by
  unfold updateOf
  rw [List.find?_cons, beq_false_of_ne h]

theorem updateOf_none {legId : LegId} (h : legId ∉ us.map LegStateUpdate.legId) :
    updateOf us legId = none := by
  unfold updateOf
  rw [List.find?_eq_none]
  intro u hu heq
  exact h (List.mem_map.mpr ⟨u, hu, eq_of_beq heq⟩)

theorem updateOf_mem {legId : LegId} (h : updateOf us legId = some u) :
    u ∈ us ∧ u.legId = legId := find_key h

theorem setLegState_eq (hdistinct : (legIds legs).Nodup) (hmem : u.legId ∈ legIds legs) :
    setLegState u.legId u.state legs = some (legs.map (restateLeg [u])) := by
  induction legs with
  | nil => exact absurd hmem List.not_mem_nil
  | cons leg legs ih =>
    have hnodup : leg.definition.legId ∉ legIds legs ∧ (legIds legs).Nodup :=
      List.nodup_cons.mp hdistinct
    unfold setLegState
    by_cases hid : leg.definition.legId = u.legId
    · rw [if_pos hid, List.map_cons]
      have hhead : restateLeg [u] leg = { leg with state := u.state } := by
        unfold restateLeg
        rw [hid, updateOf_cons_self]
      have htail : legs.map (restateLeg [u]) = legs := by
        nth_rewrite 2 [← List.map_id legs]
        refine List.map_congr_left fun other hother => ?_
        unfold restateLeg
        rw [updateOf_cons_ne, updateOf_none List.not_mem_nil]
        · rfl
        · intro hsame
          rw [hid, hsame] at hnodup
          exact hnodup.1 (List.mem_map_of_mem hother)
      rw [hhead, htail]
    · rw [if_neg hid]
      have hmem' : u.legId ∈ legIds legs :=
        (List.mem_cons.mp hmem).resolve_left fun h => hid h.symm
      rw [ih hnodup.2 hmem', List.map_cons]
      have hhead : restateLeg [u] leg = leg := by
        unfold restateLeg
        rw [updateOf_cons_ne _ fun h => hid h.symm, updateOf_none List.not_mem_nil]
      rw [hhead]
      rfl

theorem legIds_restate (us : List LegStateUpdate) (legs : List (ExecutionLeg F)) :
    legIds (legs.map (restateLeg us)) = legIds legs := by
  unfold legIds
  rw [List.map_map]
  exact List.map_congr_left fun leg _ => by
    show (restateLeg us leg).definition.legId = leg.definition.legId
    rw [restateLeg_definition]

theorem restateLeg_cons (hfresh : u.legId ∉ us.map LegStateUpdate.legId) (leg : ExecutionLeg F) :
    restateLeg us (restateLeg [u] leg) = restateLeg (u :: us) leg := by
  by_cases hid : u.legId = leg.definition.legId
  · have hfirst : restateLeg [u] leg = { leg with state := u.state } := by
      unfold restateLeg
      rw [← hid, updateOf_cons_self]
    rw [hfirst]
    unfold restateLeg
    show (match updateOf us leg.definition.legId with | some _ => _ | none => _) = _
    rw [← hid, updateOf_none hfresh, updateOf_cons_self]
  · have hfirst : restateLeg [u] leg = leg := by
      unfold restateLeg
      rw [updateOf_cons_ne _ hid, updateOf_none List.not_mem_nil]
    rw [hfirst]
    unfold restateLeg
    rw [updateOf_cons_ne _ hid]

theorem applyLegUpdates_eq (planId : PlanId) (hlegs : (legIds legs).Nodup)
    (hus : (us.map LegStateUpdate.legId).Nodup) (hmem : ∀ u ∈ us, u.legId ∈ legIds legs) :
    applyLegUpdates planId legs us = .ok (legs.map (restateLeg us)) := by
  induction us generalizing legs with
  | nil =>
    have hid : legs.map (restateLeg []) = legs := List.map_id'' (fun leg => rfl) legs
    rw [hid]
    rfl
  | cons u us ih =>
    obtain ⟨hfresh, hrest⟩ := List.nodup_cons.mp hus
    unfold applyLegUpdates
    rw [setLegState_eq hlegs (hmem u List.mem_cons_self)]
    show applyLegUpdates planId (legs.map (restateLeg [u])) us = _
    rw [ih (by rw [legIds_restate]; exact hlegs) hrest ?_, List.map_map]
    · rw [List.map_congr_left fun leg _ => ?_]
      exact restateLeg_cons hfresh leg
    · intro u' hu'
      rw [legIds_restate]
      exact hmem u' (List.mem_cons_of_mem u hu')

/-! ## the written rows -/

theorem countP_eq_one {α : Type} {key : α → String} {p : α → Bool} {xs : List α} {a : α}
    (hnodup : (xs.map key).Nodup) (ha : a ∈ xs) (hp : p a = true)
    (hkey : ∀ x ∈ xs, p x = true → key x = key a) : xs.countP p = 1 := by
  induction xs with
  | nil => exact absurd ha List.not_mem_nil
  | cons x xs ih =>
    obtain ⟨hnew, hrest⟩ := List.nodup_cons.mp hnodup
    rw [List.countP_cons]
    rcases List.mem_cons.mp ha with rfl | hmem
    · have hnone : xs.countP p = 0 := by
        rw [List.countP_eq_zero]
        intro y hy hpy
        refine hnew (List.mem_map.mpr ⟨y, hy, ?_⟩)
        exact hkey y (List.mem_cons_of_mem _ hy) hpy
      rw [hnone, if_pos hp]
    · have hx : p x ≠ true := by
        intro hpx
        refine hnew ?_
        rw [hkey x List.mem_cons_self hpx]
        exact List.mem_map_of_mem hmem
      rw [if_neg hx, ih hrest hmem fun y hy => hkey y (List.mem_cons_of_mem x hy)]

/-- a leg row that an update hits -/
structure Hit (tables : Tables P F) (u : LegStateUpdate) (row : LegRow P) : Prop where
  mem : row ∈ tables.legs
  hits : u.hits row = true

variable {row : LegRow P} {tables : Tables P F}

theorem LegStateUpdate.hits_legId (h : u.hits row = true) :
    row.legId = u.legId := by
  simp only [LegStateUpdate.hits, Bool.and_eq_true, beq_iff_eq] at h
  exact h.1.1.1.2

theorem write_eq_restate {hit : LegRow P} (h : Hit tables u hit) :
    tables.legs.map u.write = tables.legs.map (restateRow [u]) := by
  refine List.map_congr_left fun row hrow => ?_
  unfold LegStateUpdate.write restateRow
  by_cases hid : u.legId = row.legId
  · have hsame : row = hit := by
      refine List.inj_on_of_nodup_map tables.legKey hrow h.mem ?_
      rw [← hid, u.hits_legId h.hits]
    rw [hsame, if_pos h.hits, u.hits_legId h.hits, updateOf_cons_self]
  · rw [if_neg fun hh => hid (u.hits_legId hh).symm, updateOf_cons_ne _ hid,
      updateOf_none List.not_mem_nil]

theorem restateRow_cons (hfresh : u.legId ∉ us.map LegStateUpdate.legId) (row : LegRow P) :
    restateRow us (restateRow [u] row) = restateRow (u :: us) row := by
  by_cases hid : u.legId = row.legId
  · have hfirst : restateRow [u] row =
        { row with status := u.state.status, updatedAt := u.updatedAt } := by
      unfold restateRow
      rw [← hid, updateOf_cons_self]
    rw [hfirst]
    unfold restateRow
    show (match updateOf us row.legId with | some _ => _ | none => _) = _
    rw [← hid, updateOf_none hfresh, updateOf_cons_self]
  · have hfirst : restateRow [u] row = row := by
      unfold restateRow
      rw [updateOf_cons_ne _ hid, updateOf_none List.not_mem_nil]
    rw [hfirst]
    unfold restateRow
    rw [updateOf_cons_ne _ hid]

/-- `next` differs from `tables` by the restatement of the leg rows only -/
structure LegsRestated (tables next : Tables P F) (us : List LegStateUpdate) : Prop where
  legs : next.legs = tables.legs.map (restateRow us)
  plans : next.plans = tables.plans
  risk : next.risk = tables.risk
  intent : next.intent = tables.intent

theorem updateLegRow_ok {hit : LegRow P} (h : Hit tables u hit) :
    ∃ next, updateLegRow tables u = .ok next ∧ LegsRestated tables next [u] := by
  have hcount : tables.legs.countP u.hits = 1 :=
    countP_eq_one tables.legKey h.mem h.hits fun row _ hrow => by
      rw [u.hits_legId hrow, u.hits_legId h.hits]
  unfold updateLegRow
  rw [hcount]
  exact ⟨_, rfl, write_eq_restate h, rfl, rfl, rfl⟩

theorem updateLegRows_ok (hus : (us.map LegStateUpdate.legId).Nodup)
    (hhit : ∀ u ∈ us, ∃ row, Hit tables u row) :
    ∃ next, updateLegRows tables us = .ok next ∧ LegsRestated tables next us := by
  induction us generalizing tables with
  | nil => exact ⟨tables, rfl, (List.map_id'' (fun row => rfl) _).symm, rfl, rfl, rfl⟩
  | cons u us ih =>
    obtain ⟨hfresh, hrest⟩ := List.nodup_cons.mp hus
    obtain ⟨hit, hu⟩ := hhit u List.mem_cons_self
    obtain ⟨mid, hmid, hfirst⟩ := updateLegRow_ok hu
    have hkeep : ∀ u' ∈ us, ∃ row, Hit mid u' row := by
      intro u' hu'
      obtain ⟨row, hrow⟩ := hhit u' (List.mem_cons_of_mem u hu')
      have hne : u.legId ≠ row.legId := by
        intro hsame
        rw [u'.hits_legId hrow.hits] at hsame
        exact hfresh (List.mem_map.mpr ⟨u', hu', hsame.symm⟩)
      have hsame : restateRow [u] row = row := by
        unfold restateRow
        rw [updateOf_cons_ne _ hne, updateOf_none List.not_mem_nil]
      refine ⟨row, ?_, hrow.hits⟩
      rw [hfirst.legs]
      exact List.mem_map.mpr ⟨row, hrow.mem, hsame⟩
    obtain ⟨next, hnext, hothers⟩ := ih hrest hkeep
    refine ⟨next, ?_, ?_, ?_, ?_, ?_⟩
    · unfold updateLegRows
      rw [hmid]
      exact hnext
    · rw [hothers.legs, hfirst.legs, List.map_map]
      exact List.map_congr_left fun row _ => restateRow_cons hfresh row
    · rw [hothers.plans, hfirst.plans]
    · rw [hothers.risk, hfirst.risk]
    · rw [hothers.intent, hfirst.intent]

/-! ## the rows, decoded -/

/-- a decoded leg is the row's own data under the definition of its payload -/
structure LegDecodes (codec : PayloadCodec P F) (row : LegRow P) (s : StoredExecutionLeg P F) :
    Prop where
  payload : codec.leg row.payload = some s.leg.definition
  columns : row.legId = s.leg.definition.legId ∧ row.symbol = s.leg.definition.symbol ∧
    row.action = s.leg.definition.action
  updated : 0 ≤ row.updatedAt
  valid : s.leg.validate = .ok ()
  same : s = ⟨row.planId, ⟨s.leg.definition, ⟨row.status⟩⟩, row.payload, row.updatedAt⟩

variable {codec : PayloadCodec P F} {s : StoredExecutionLeg P F} {createdAt : Int} {key : String}
  {stored : List (StoredExecutionLeg P F)} {journal : List (ExecutionLegDefinition F)}
  {next : Tables P F}

theorem executionLegFromRow_ok :
    executionLegFromRow codec row = .ok s ↔ LegDecodes codec row s := by
  simp only [executionLegFromRow, validateColumn, bind_ok, exists_unit, need_ok, reject_ok, pure_ok,
    semanticCheck_ok, ne_eq, not_not, not_lt]
  constructor
  · rintro ⟨definition, hpayload, hid, hsymbol, haction, hupdated, hvalid, rfl⟩
    exact ⟨hpayload, ⟨hid, hsymbol, haction⟩, hupdated, hvalid, rfl⟩
  · intro h
    refine ⟨s.leg.definition, h.payload, h.columns.1, h.columns.2.1, h.columns.2.2, h.updated, ?_,
      h.same.symm⟩
    rw [ExecutionLeg.validate_definition _ s.leg.state]
    exact h.valid

theorem LegDecodes.legId (h : LegDecodes codec row s) : s.legId = row.legId := h.columns.1.symm

theorem LegDecodes.planId (h : LegDecodes codec row s) : s.planId = row.planId := by rw [h.same]

theorem LegDecodes.status (h : LegDecodes codec row s) :
    s.leg.state.status = row.status := by rw [h.same]

theorem LegDecodes.updatedAt (h : LegDecodes codec row s) : s.updatedAt = row.updatedAt := by
  rw [h.same]

theorem planLegFromRow_ok : planLegFromRow codec createdAt row = .ok s ↔
      LegDecodes codec row s ∧ createdAt ≤ s.updatedAt := by
  simp only [planLegFromRow, bind_ok, exists_unit, reject_ok, pure_ok, executionLegFromRow_ok,
    not_lt]
  constructor
  · rintro ⟨s', hs, hcreated, rfl⟩
    exact ⟨hs, hcreated⟩
  · rintro ⟨hs, hcreated⟩
    exact ⟨s, hs, hcreated, rfl⟩

theorem planLegFromRow_restate (hcreated : 0 ≤ createdAt) (hus : ∀ u ∈ us, createdAt ≤ u.updatedAt)
    (h : planLegFromRow codec createdAt row = .ok s) :
    planLegFromRow codec createdAt (restateRow us row) = .ok (restateStored us s) := by
  rw [planLegFromRow_ok] at h ⊢
  obtain ⟨hdecodes, hupdated⟩ := h
  unfold restateRow restateStored
  rw [hdecodes.legId]
  cases hu : updateOf us row.legId with
  | none => exact ⟨hdecodes, hupdated⟩
  | some u =>
    have hversion := hus u (updateOf_mem hu).1
    refine ⟨⟨hdecodes.payload, hdecodes.columns, ?_, ?_, ?_⟩, hversion⟩
    · exact Int.le_trans hcreated hversion
    · rw [ExecutionLeg.validate_definition _ s.leg.state]
      exact hdecodes.valid
    · rw [hdecodes.same]

theorem matchJournalLegs_restate (us : List LegStateUpdate)
    (h : matchJournalLegs codec key stored journal = .ok legs) :
    matchJournalLegs codec key (stored.map (restateStored us)) journal
      = .ok (legs.map (restateLeg us)) := by
  induction journal generalizing stored legs with
  | nil =>
    cases h
    rfl
  | cons expected journal ih =>
    simp only [matchJournalLegs, bind_ok, exists_unit, need_ok, reject_ok, pure_ok, not_not,
      ne_eq] at h
    obtain ⟨found, hfound, payload, hpayload, hsame, others, hothers, rfl⟩ := h
    have hkey : (fun s : StoredExecutionLeg P F => s.legId == expected.legId) ∘ restateStored us
        = fun s => s.legId == expected.legId :=
      funext fun s => by simp only [Function.comp, restateStored_legId]
    have hfound' : (stored.map (restateStored us)).find? (fun s => s.legId == expected.legId)
        = some (restateStored us found) := by
      rw [List.find?_map, hkey, hfound]
      rfl
    have hrest : (stored.map (restateStored us)).filter (fun s => s.legId != expected.legId)
        = (stored.filter fun s => s.legId != expected.legId).map (restateStored us) := by
      rw [List.filter_map]
      congr 1
      refine List.filter_congr fun s _ => ?_
      simp only [Function.comp, restateStored_legId]
    simp only [matchJournalLegs, bind_ok, exists_unit, need_ok, reject_ok, pure_ok, not_not, ne_eq]
    refine ⟨restateStored us found, hfound', payload, hpayload, ?_, others.map (restateLeg us),
      ?_, ?_⟩
    · rw [restateStored_payload]
      exact hsame
    · rw [hrest]
      exact ih hothers
    · rw [restateStored_leg, List.map_cons]

theorem matchJournalLegs_mem (h : matchJournalLegs codec key stored journal = .ok legs) :
    ∀ leg ∈ legs, ∃ s ∈ stored, s.leg = leg := by
  induction journal generalizing stored legs with
  | nil =>
    cases h
    exact fun leg hleg => absurd hleg List.not_mem_nil
  | cons expected journal ih =>
    simp only [matchJournalLegs, bind_ok, exists_unit, need_ok, reject_ok, pure_ok] at h
    obtain ⟨found, hfound, payload, -, -, others, hothers, rfl⟩ := h
    intro leg hleg
    rcases List.mem_cons.mp hleg with rfl | hleg
    · exact ⟨found, (find_key hfound).1, rfl⟩
    · obtain ⟨s, hs, hsleg⟩ := ih hothers leg hleg
      exact ⟨s, (List.mem_filter.mp hs).1, hsleg⟩

theorem planLegRows_restate (h : next.legs = tables.legs.map (restateRow us)) (planId : PlanId) :
    planLegRows next planId = (planLegRows tables planId).map (restateRow us) := by
  unfold planLegRows
  rw [h, List.filter_map]
  congr 1
  refine List.filter_congr fun row _ => ?_
  simp only [Function.comp, restateRow_planId]

theorem validatePlanParents_restate {journal : ExecutionPlanJournal F}
    {plan plan' : ExecutionPlan F} (hrisk : next.risk = tables.risk)
    (hintent : next.intent = tables.intent) (hdefinition : plan'.definition = plan.definition)
    (hlegs : plan'.legs.map ExecutionLeg.definition = plan.legs.map ExecutionLeg.definition) :
    validatePlanParents next key journal createdAt plan'
      = validatePlanParents tables key journal createdAt plan := by
  unfold validatePlanParents
  rw [hrisk, hintent]
  simp only [validateExecutionPlanGraph_definition hdefinition hlegs]

/-- Reading commutes with an update: the row decodes to the restated legs under the new status, as
long as that plan is valid. -/
theorem Decodes.restate {row row' : PlanRow P} {journal : ExecutionPlanJournal F}
    {rows : List (StoredExecutionLeg P F)} (h : Decodes codec tables row journal rows legs)
    (hlegs : next.legs = tables.legs.map (restateRow us)) (hrisk : next.risk = tables.risk)
    (hintent : next.intent = tables.intent)
    (hrow : row' = { row with status := row'.status, updatedAt := row'.updatedAt })
    (hupdated : row.createdAt ≤ row'.updatedAt) (hus : ∀ u ∈ us, row.createdAt ≤ u.updatedAt)
    (hvalid : (planFromLegs journal.definition row'.status (legs.map (restateLeg us))).validate
      = .ok ()) :
    Decodes codec next row' journal (rows.map (restateStored us)) (legs.map (restateLeg us)) := by
  have hcolumns : validatePlanColumns row' journal = validatePlanColumns row journal := by
    rw [hrow]
    rfl
  have hpayload : row'.payload = row.payload := by rw [hrow]
  have hcreated : row'.createdAt = row.createdAt := by rw [hrow]
  have hplanId : row'.planId = row.planId := by rw [hrow]
  have hdefinitions : (legs.map (restateLeg us)).map ExecutionLeg.definition
      = legs.map ExecutionLeg.definition := by
    rw [List.map_map]
    exact List.map_congr_left fun leg _ => restateLeg_definition us leg
  refine ⟨?_, ?_, ?_, ?_, ?_, ?_, ?_, hvalid, ?_⟩
  · rw [hpayload]
    exact h.payload
  · rw [hcolumns]
    exact h.columns
  · rw [hcreated]
    exact h.created
  · rw [hcreated]
    exact hupdated
  · unfold storedLegs
    rw [hplanId, hcreated, planLegRows_restate hlegs]
    have hclash : ∀ z y : StoredExecutionLeg P F,
        sameLegId (restateStored us z) (restateStored us y) = sameLegId z y := by
      intro z y
      unfold sameLegId
      rw [restateStored_legId, restateStored_legId]
    have hdecode : ∀ r ∈ planLegRows tables row.planId, ∀ s,
        planLegFromRow codec row.createdAt r = .ok s →
        planLegFromRow codec row.createdAt (restateRow us r) = .ok (restateStored us s) :=
      fun r _ s hs => planLegFromRow_restate h.created hus hs
    have hmapped := collectApart_map hclash hdecode h.stored
    exact hmapped
  · rw [List.length_map]
    exact h.count
  · rw [hplanId]
    exact matchJournalLegs_restate us h.matched
  · have hparents : validatePlanParents next row.planId journal row.createdAt
        (planFromLegs journal.definition row'.status (legs.map (restateLeg us)))
        = validatePlanParents tables row.planId journal row.createdAt
          (planFromLegs journal.definition row.status legs) :=
      validatePlanParents_restate hrisk hintent rfl hdefinitions
    rw [hplanId, hcreated, hparents]
    exact h.parents

end

end Sinan.Store
