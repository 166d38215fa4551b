import Sinan.Snapshot.Model
import Sinan.Store.Status

/-!
# The inputs of hard risk: what every write keeps

In every store that accepted calls lead to (`Sound`), the projections are those that the events call
for, each command state belongs to a command row, and the rows of the breaker and the latest
capacities pass the checks of their readers.
-/

set_option linter.unusedSectionVars false

namespace Sinan.Snapshot

open Lib Store Projection
open Execution hiding ProjectionError

section
variable {P F : Type} [DecidableEq P] [DecidableEq F] [F64 F]

/-! ## command states and their commands -/

def commandIdentity (row : CommandRow F) :
    CommandId × AccountId × Option PlanId × Option LegId × Int :=
  (row.command.commandId, row.command.accountId, row.command.planId, row.command.legId, row.createdAt)

/-- every state is that of a command row -/
def StatesOwned (t : WorkflowTables P F) : Prop :=
  ∀ state ∈ t.states.rows, ∃ row ∈ t.commands.rows, stateIdentity state = commandIdentity row

/-- the step keeps the owners of the states -/
def OwnersKept (t t' : WorkflowTables P F) : Prop := StatesOwned t → StatesOwned t'

theorem OwnersKept.refl (t : WorkflowTables P F) : OwnersKept t t := id

theorem OwnersKept.trans {a b c : WorkflowTables P F} (hab : OwnersKept a b) (hbc : OwnersKept b c) :
    OwnersKept a c := fun h => hbc (hab h)

variable {t t' : WorkflowTables P F}

theorem OwnersKept.of_commands (hcommands : t.commands.rows ⊆ t'.commands.rows)
    (hstates : t'.states = t.states) : OwnersKept t t' := by
  intro h state hstate
  rw [hstates] at hstate
  obtain ⟨row, hrow, hsame⟩ := h state hstate
  exact ⟨row, hcommands hrow, hsame⟩

theorem insertTradeIntent_owners (new : NewTradeIntent F) :
    Script.Keeps OwnersKept (insertTradeIntent new : Statement P F Bool) := by
  intro t b t' h
  obtain ⟨-, ⟨intents, -, rfl⟩ | rfl⟩ := insertTradeIntent_ok h
  · exact OwnersKept.of_commands (List.Subset.refl _) rfl
  · exact OwnersKept.refl t'

theorem insertRiskResult_owners (result : RiskResult F) :
    Script.Keeps OwnersKept (insertRiskResult result : Statement P F Bool) := by
  refine .bind OwnersKept.trans (.query OwnersKept.refl _) fun _ => ?_
  refine .bind OwnersKept.trans (.query OwnersKept.refl _) fun existing => ?_
  cases existing with
  | some existing =>
    exact .bind OwnersKept.trans (.query OwnersKept.refl _) fun _ => .pure OwnersKept.refl _
  | none =>
    refine .bind OwnersKept.trans (.query OwnersKept.refl _) fun _ => .write fun t b t' h => ?_
    simp only [bind_ok, need_ok, pure_ok, Prod.mk.injEq] at h
    obtain ⟨risks, hinsert, -, rfl⟩ := h
    exact OwnersKept.of_commands (List.Subset.refl _) rfl

theorem insertPlanRows_owners (codec : JournalCodec P F) (new : NewExecutionPlan F) (payload : P) :
    Script.Keeps OwnersKept (insertPlanRows codec new payload) := by
  have hleg (leg : ExecutionLeg F) : Script.Keeps OwnersKept (insertExecutionLeg codec new leg) := by
    refine .write fun t b t' h => ?_
    simp only [bind_ok, need_ok, pure_ok, Prod.mk.injEq] at h
    obtain ⟨payload, -, legs, hinsert, -, rfl⟩ := h
    exact OwnersKept.of_commands (List.Subset.refl _) rfl
  refine .bind OwnersKept.trans (.write fun t b t' h => ?_) fun _ => ?_
  · simp only [bind_ok, need_ok, pure_ok, Prod.mk.injEq] at h
    obtain ⟨plans, hinsert, -, rfl⟩ := h
    exact OwnersKept.of_commands (List.Subset.refl _) rfl
  · refine .bind OwnersKept.trans (.forEach OwnersKept.refl OwnersKept.trans hleg _) fun _ => ?_
    exact .bind OwnersKept.trans (.query OwnersKept.refl _) fun _ =>
      .bind OwnersKept.trans (.query OwnersKept.refl _) fun _ => .pure OwnersKept.refl _

theorem insertExecutionPlan_owners (codec : JournalCodec P F) (new : NewExecutionPlan F) :
    Script.Keeps OwnersKept (insertExecutionPlan codec new) := by
  refine .bind OwnersKept.trans (.query OwnersKept.refl _) fun _ => ?_
  refine .bind OwnersKept.trans (.query OwnersKept.refl _) fun payload => ?_
  refine .bind OwnersKept.trans (.query OwnersKept.refl _) fun existing => ?_
  cases existing with
  | some existing =>
    exact .bind OwnersKept.trans (.query OwnersKept.refl _) fun _ => .pure OwnersKept.refl _
  | none => exact insertPlanRows_owners codec new payload

theorem insertExecutionCommand_owners (new : NewExecutionCommand F) :
    Script.Keeps OwnersKept (insertExecutionCommand new : Statement P F Bool) := by
  refine .write fun t b t' h => ?_
  cases hinsert : t.commands.insert new.row with
  | some commands =>
    simp only [hinsert] at h
    cases h
    exact OwnersKept.of_commands (Table.insert_extends hinsert).subset rfl
  | none =>
    simp only [hinsert] at h
    split at h
    · split at h
      · cases h
        exact OwnersKept.refl t
      · cases h
    · cases h

theorem insertExecutionCommandState_owners (state : ExecutionCommandState) :
    Script.Keeps OwnersKept (insertExecutionCommandState state : Statement P F Bool) := by
  intro t any t' hrun
  simp only [insertExecutionCommandState, Script.bind_run, Script.query_run, Script.write_run] at hrun
  obtain ⟨_, u, ⟨hidentity, hu⟩, hwrite⟩ := hrun
  rw [hu] at hwrite
  cases hinsert : t.states.insert state with
  | none =>
    simp only [hinsert, bind_ok, exists_unit, pure_ok, Prod.mk.injEq] at hwrite
    obtain ⟨_, -, -, -, rfl⟩ := hwrite
    exact OwnersKept.refl t
  | some states =>
    simp only [hinsert, Except.ok.injEq, Prod.mk.injEq] at hwrite
    obtain ⟨-, rfl⟩ := hwrite
    simp only [validateCommandStateIdentity, bind_ok, need_ok] at hidentity
    obtain ⟨row, hrow, hsame⟩ := hidentity
    have hsame := reject_ok.mp hsame
    simp only [ne_eq, not_or, not_not] at hsame
    obtain ⟨haccount, hplan, hleg, hcreated⟩ := hsame
    obtain ⟨hmem, hid⟩ := Table.get_eq_some.mp hrow
    intro h s hs
    have hs : s ∈ states.rows := hs
    rw [Table.ofRows_rows hinsert] at hs
    rcases List.mem_append.mp hs with hs | hs
    · exact h s hs
    · obtain rfl := List.mem_singleton.mp hs
      refine ⟨row, hmem, ?_⟩
      simp only [stateIdentity, commandIdentity, Prod.mk.injEq]
      exact ⟨hid.symm, haccount.symm, hplan.symm, hleg.symm, hcreated.symm⟩

theorem updateExecutionCommandState_owners {states : StateTable} {u : CommandStateUpdate}
    (h : updateExecutionCommandState t.states u = .ok states) :
    OwnersKept t { t with states } := by
  simp only [updateExecutionCommandState, bind_ok, need_ok] at h
  obtain ⟨row, hrow, h⟩ := h
  by_cases hhit : u.hits row = true
  · rw [if_pos hhit, need_ok] at h
    simp only [CommandStateUpdate.hits, Bool.and_eq_true, sameCommandStateIdentity_iff] at hhit
    have hidentity : stateIdentity row = stateIdentity u.state := hhit.1.1.1
    intro howned s hs
    rcases (Table.mem_put h hrow).mp hs with rfl | ⟨hold, -⟩
    · rw [← hidentity]
      exact howned row (Table.get_eq_some.mp hrow).1
    · exact howned s hold
  · rw [if_neg hhit] at h
    simp only [bind_ok, exists_unit, pure_ok] at h
    obtain ⟨-, -, rfl⟩ := h
    exact OwnersKept.refl t

theorem LifecycleCall.apply_owners {codec : JournalCodec P F} {call : LifecycleCall}
    (h : call.apply codec t = .ok t') : OwnersKept t t' := by
  cases call with
  | command u =>
    simp only [LifecycleCall.apply, bind_ok, pure_ok] at h
    obtain ⟨states, hupdate, rfl⟩ := h
    exact updateExecutionCommandState_owners hupdate
  -- the others write plans and legs only
  | plan u | leg u | lifecycle u =>
    simp only [LifecycleCall.apply, bind_ok, pure_ok] at h
    obtain ⟨out, -, rfl⟩ := h
    exact OwnersKept.of_commands (List.Subset.refl _) rfl

theorem owners_statements (codec : JournalCodec P F) :
    StatementsKeep codec (OwnersKept (P := P) (F := F)) where
  refl := OwnersKept.refl
  trans := OwnersKept.trans
  intent := insertTradeIntent_owners
  risk := insertRiskResult_owners
  plan := insertExecutionPlan_owners codec
  command := insertExecutionCommand_owners
  state := insertExecutionCommandState_owners
  lifecycle := LifecycleCall.apply_owners

end

/-! ## the rows of the breaker -/

section
variable {J : Type} {codec : Breaker.SnapshotCodec J} {rows rows' : List (Breaker.SnapshotRow J)}

def BreakersReadable (codec : Breaker.SnapshotCodec J) (rows : List (Breaker.SnapshotRow J)) : Prop :=
  ∀ row ∈ rows, ∃ stored, Breaker.circuitBreakerSnapshotFromRow codec row = .ok stored

variable {snapshot : Breaker.NewCircuitBreakerSnapshot J}

theorem readable_of_valid (h : Breaker.validateNewCircuitBreakerSnapshot codec snapshot = .ok ()) :
    ∃ stored, Breaker.circuitBreakerSnapshotFromRow codec snapshot.target = .ok stored := by
  simp only [Breaker.validateNewCircuitBreakerSnapshot, bind_ok, exists_unit, mapError_ok] at h
  obtain ⟨-, hschema, hstatus, hupdated, -, -, haliases⟩ := h
  have hstatus := reject_ok.mp hstatus
  refine ⟨snapshot.at (Breaker.targetRevision snapshot.expectedHeadRevision), ?_⟩
  simp only [Breaker.circuitBreakerSnapshotFromRow, bind_ok, exists_unit, mapError_ok, need_ok,
    pure_ok]
  exact ⟨reject_ok.mpr (reject_ok.mp hschema), reject_ok.mpr hstatus,
    reject_ok.mpr (reject_ok.mp hupdated), snapshot.payload, rfl, haliases, rfl⟩

theorem BreakersReadable.write [DecidableEq J] (h : BreakersReadable codec rows)
    {written : WriteOutcome (Breaker.StoredCircuitBreakerSnapshot J)}
    (hok : Breaker.writeCircuitBreakerSnapshot codec rows snapshot = .ok (written, rows')) :
    BreakersReadable codec rows' := by
  rcases (Breaker.write_effect hok).rows with ⟨rfl, -⟩ | ⟨rfl, -⟩
  · exact h
  · unfold Breaker.writeCircuitBreakerSnapshot at hok
    obtain ⟨_, hvalid, -⟩ := bind_ok.mp hok
    intro row hrow
    rcases List.mem_append.mp hrow with hrow | hrow
    · exact h row hrow
    · rw [List.mem_singleton.mp hrow]
      exact readable_of_valid hvalid

theorem BreakersReadable.fetch (h : BreakersReadable codec rows) :
    ∃ found, Breaker.fetchLatestCircuitBreakerSnapshot codec rows = .ok found := by
  unfold Breaker.fetchLatestCircuitBreakerSnapshot
  cases hhead : Breaker.headRow rows with
  | none => exact ⟨none, rfl⟩
  | some row =>
    obtain ⟨stored, hstored⟩ := h row (List.argmax_mem hhead)
    refine ⟨some stored, ?_⟩
    show (Breaker.circuitBreakerSnapshotFromRow codec row).map some = _
    rw [hstored]
    rfl

end

/-! ## all tables -/

section
variable {P F D E J : Type} [DecidableEq P] [DecidableEq F] [DecidableEq D] [DecidableEq E]
  [DecidableEq J] [F64 F] {w : Writers P F D E J} {t t' : RiskTables P F D J}
  {R : WorkflowTables P F → WorkflowTables P F → Prop}

theorem accepted_ok {α : Type} {statement : Statement P F α} (h : accepted statement t = .ok t') :
    ∃ a workflows, statement t.workflows = (.ok a, workflows) ∧ t' = { t with workflows } := by
  unfold accepted at h
  cases hrun : statement t.workflows with
  | mk result workflows =>
    cases result with
    | error e =>
      rw [hrun] at h
      cases h
    | ok a =>
      rw [hrun] at h
      cases h
      exact ⟨a, workflows, rfl, rfl⟩

theorem RiskCall.apply_workflows (hR : StatementsKeep w.journal R) {call : RiskCall F J}
    (hok : call.apply w t = .ok t') :
    R t.workflows t'.workflows := by
  have hstatement : ∀ {α : Type} {statement : Statement P F α}, Script.Keeps R statement →
      accepted statement t = .ok t' → R t.workflows t'.workflows := by
    intro α statement hkeeps haccepted
    obtain ⟨a, workflows, hrun, rfl⟩ := accepted_ok haccepted
    exact hkeeps _ _ _ hrun
  cases call with
  | projection call =>
    obtain ⟨projected, -, hok⟩ := bind_ok.mp hok
    cases pure_ok.mp hok
    exact hR.refl _
  | market snapshot updatedAt =>
    obtain ⟨⟨markets, decision⟩, -, hok⟩ := bind_ok.mp hok
    cases pure_ok.mp hok
    exact hR.refl _
  | breaker snapshot =>
    obtain ⟨⟨written, breakers⟩, -, hok⟩ := bind_ok.mp hok
    cases pure_ok.mp hok
    exact hR.refl _
  | capacity snapshot =>
    obtain ⟨⟨capacities, outcome⟩, -, hok⟩ := bind_ok.mp hok
    cases pure_ok.mp hok
    exact hR.refl _
  | intent new => exact hstatement (hR.intent new) hok
  | riskResult result => exact hstatement (hR.risk result) hok
  | plan new => exact hstatement (hR.plan new) hok
  | command new => exact hstatement (hR.command new) hok
  | commandState state => exact hstatement (hR.state state) hok
  | workflow call =>
    obtain ⟨workflows, hcall, hok⟩ := bind_ok.mp hok
    cases pure_ok.mp hok
    exact hR.call (mapError_ok.mp hcall)

theorem riskRun_workflows (hR : StatementsKeep w.journal R) {calls : List (RiskCall F J)}
    (hok : riskRun w t calls = .ok t') : R t.workflows t'.workflows :=
  foldlM_related (R := fun a b : RiskTables P F D J => R a.workflows b.workflows)
    (fun t => hR.refl t.workflows) hR.trans (fun _ _ _ => RiskCall.apply_workflows hR) hok

structure Sound (w : Writers P F D E J) (t : RiskTables P F D J) : Prop where
  projected : Kept w.digests t.projected
  states : StatesOwned t.workflows
  breakers : BreakersReadable w.breaker t.breakers
  capacities : CapacitiesValid t.capacities.latest

theorem Sound.empty : Sound w (.empty P F D J) where
  projected := Kept.empty
  states _ h := absurd h List.not_mem_nil
  breakers _ h := absurd h List.not_mem_nil
  capacities _ h := absurd h List.not_mem_nil

theorem Sound.statement (h : Sound w t) {α : Type} {statement : Statement P F α}
    (hkeeps : Script.Keeps OwnersKept statement) (hok : accepted statement t = .ok t') :
    Sound w t' := by
  obtain ⟨a, workflows, hrun, rfl⟩ := accepted_ok hok
  exact { h with states := hkeeps _ _ _ hrun h.states }

theorem Sound.call (hdist : w.digests.Distinct) (h : Sound w t) {call : RiskCall F J}
    (hok : call.apply w t = .ok t') : Sound w t' := by
  cases call with
  | projection call =>
    obtain ⟨projected, hcall, hok⟩ := bind_ok.mp hok
    cases pure_ok.mp hok
    exact { h with projected := h.projected.call hdist hcall }
  | market snapshot updatedAt =>
    obtain ⟨⟨markets, decision⟩, -, hok⟩ := bind_ok.mp hok
    cases pure_ok.mp hok
    exact { h with }
  | breaker snapshot =>
    obtain ⟨⟨written, breakers⟩, hwrite, hok⟩ := bind_ok.mp hok
    cases pure_ok.mp hok
    exact { h with breakers := h.breakers.write (mapError_ok.mp hwrite) }
  | capacity snapshot =>
    obtain ⟨⟨capacities, outcome⟩, hrecord, hok⟩ := bind_ok.mp hok
    cases pure_ok.mp hok
    exact { h with capacities := h.capacities.record hrecord }
  | intent new => exact h.statement (insertTradeIntent_owners new) hok
  | riskResult result => exact h.statement (insertRiskResult_owners result) hok
  | plan new => exact h.statement (insertExecutionPlan_owners w.journal new) hok
  | command new => exact h.statement (insertExecutionCommand_owners new) hok
  | commandState state => exact h.statement (insertExecutionCommandState_owners state) hok
  | workflow call =>
    obtain ⟨workflows, hcall, hok⟩ := bind_ok.mp hok
    cases pure_ok.mp hok
    exact { h with states := (owners_statements w.journal).call (mapError_ok.mp hcall) h.states }

theorem Sound.run (hdist : w.digests.Distinct) (h : Sound w t) {calls : List (RiskCall F J)}
    (hok : riskRun w t calls = .ok t') : Sound w t' := by
  induction calls generalizing t with
  | nil =>
    cases hok
    exact h
  | cons call calls ih =>
    unfold riskRun at hok
    rw [List.foldlM_cons] at hok
    obtain ⟨next, hcall, hrest⟩ := bind_ok.mp hok
    exact ih (h.call hdist hcall) hrest

end

end Sinan.Snapshot
