import Sinan.Store.Updates

/-!
# Committing a workflow again

A commit only adds rows, so what the first commit wrote and read back is still there after any
updates of the lifecycle, up to the status columns: the workflow is recorded.  Committing a recorded
workflow again writes nothing, and succeeds exactly if the states of its commands can still be read.
-/

set_option linter.unusedSectionVars false

namespace Sinan.Store

open Lib Execution

section
variable {P F : Type} [DecidableEq P] [DecidableEq F] [F64 F]

/-! ## a commit only adds rows -/

structure Extends (t t' : WorkflowTables P F) : Prop where
  intents : t.intents.rows <+: t'.intents.rows
  risks : t.risks.rows <+: t'.risks.rows
  plans : t.plans.rows <+: t'.plans.rows
  legs : t.legs.rows <+: t'.legs.rows
  commands : t.commands.rows <+: t'.commands.rows
  states : t.states.rows <+: t'.states.rows

theorem Extends.refl (t : WorkflowTables P F) : Extends t t :=
  ⟨List.prefix_rfl, List.prefix_rfl, List.prefix_rfl, List.prefix_rfl, List.prefix_rfl,
    List.prefix_rfl⟩

theorem Extends.trans {a b c : WorkflowTables P F} (hab : Extends a b) (hbc : Extends b c) :
    Extends a c :=
  ⟨hab.intents.trans hbc.intents, hab.risks.trans hbc.risks, hab.plans.trans hbc.plans,
    hab.legs.trans hbc.legs, hab.commands.trans hbc.commands, hab.states.trans hbc.states⟩

theorem insertTradeIntent_ok {new : NewTradeIntent F} {t t' : WorkflowTables P F} {any : Bool}
    (h : insertTradeIntent new t = (.ok any, t')) :
    checkDecisionTimestamp new.intent = .ok () ∧
      ((∃ intents, t.intents.insert new.row = some intents ∧ t' = { t with intents }) ∨ t' = t) := by
  simp only [insertTradeIntent, Script.bind_run, Script.query_run] at h
  obtain ⟨_, _, ⟨hcheck, hsame⟩, hwrite⟩ := h
  refine ⟨hcheck, ?_⟩
  rw [hsame, Script.write_run] at hwrite
  cases hinsert : t.intents.insert new.row with
  | some intents =>
    simp only [hinsert] at hwrite
    cases hwrite
    exact .inl ⟨intents, rfl, rfl⟩
  | none =>
    simp only [hinsert] at hwrite
    split at hwrite
    · split at hwrite
      · cases hwrite
        exact .inr rfl
      · cases hwrite
    · cases hwrite

theorem insertTradeIntent_extends (new : NewTradeIntent F) :
    Script.Keeps Extends (insertTradeIntent new : Statement P F Bool) := by
  intro t b t' h
  obtain ⟨-, ⟨intents, hinsert, rfl⟩ | rfl⟩ := insertTradeIntent_ok h
  · exact { Extends.refl t with intents := Table.insert_extends hinsert }
  · exact Extends.refl t'

theorem insertRiskResult_extends (result : RiskResult F) :
    Script.Keeps Extends (insertRiskResult result : Statement P F Bool) := by
  refine .bind Extends.trans (.query Extends.refl _) fun _ => ?_
  refine .bind Extends.trans (.query Extends.refl _) fun existing => ?_
  cases existing with
  | some existing =>
    exact .bind Extends.trans (.query Extends.refl _) fun _ => .pure Extends.refl _
  | none =>
    refine .bind Extends.trans (.query Extends.refl _) fun _ => .write fun t b t' h => ?_
    simp only [bind_ok, need_ok, pure_ok, Prod.mk.injEq] at h
    obtain ⟨risks, hinsert, -, rfl⟩ := h
    exact { Extends.refl t with risks := Table.insert_extends hinsert }

theorem insertExecutionLeg_extends (codec : JournalCodec P F) (new : NewExecutionPlan F)
    (leg : ExecutionLeg F) : Script.Keeps Extends (insertExecutionLeg codec new leg) := by
  refine .write fun t b t' h => ?_
  simp only [bind_ok, need_ok, pure_ok, Prod.mk.injEq] at h
  obtain ⟨payload, -, legs, hinsert, -, rfl⟩ := h
  exact { Extends.refl t with legs := Table.insert_extends hinsert }

theorem insertPlanRows_extends (codec : JournalCodec P F) (new : NewExecutionPlan F) (payload : P) :
    Script.Keeps Extends (insertPlanRows codec new payload) := by
  refine .bind Extends.trans (.write fun t b t' h => ?_) fun _ => ?_
  · simp only [bind_ok, need_ok, pure_ok, Prod.mk.injEq] at h
    obtain ⟨plans, hinsert, -, rfl⟩ := h
    exact { Extends.refl t with plans := Table.insert_extends hinsert }
  · refine .bind Extends.trans
      (.forEach Extends.refl Extends.trans (insertExecutionLeg_extends codec new) _) fun _ => ?_
    exact .bind Extends.trans (.query Extends.refl _) fun _ =>
      .bind Extends.trans (.query Extends.refl _) fun _ => .pure Extends.refl _

theorem insertExecutionPlan_extends (codec : JournalCodec P F) (new : NewExecutionPlan F) :
    Script.Keeps Extends (insertExecutionPlan codec new) := by
  refine .bind Extends.trans (.query Extends.refl _) fun _ => ?_
  refine .bind Extends.trans (.query Extends.refl _) fun payload => ?_
  refine .bind Extends.trans (.query Extends.refl _) fun existing => ?_
  cases existing with
  | some existing =>
    exact .bind Extends.trans (.query Extends.refl _) fun _ => .pure Extends.refl _
  | none => exact insertPlanRows_extends codec new payload

theorem insertExecutionCommand_extends (new : NewExecutionCommand F) :
    Script.Keeps Extends (insertExecutionCommand new : Statement P F Bool) := by
  refine .write fun t b t' h => ?_
  cases hinsert : t.commands.insert new.row with
  | some commands =>
    simp only [hinsert] at h
    cases h
    exact { Extends.refl t with commands := Table.insert_extends hinsert }
  | none =>
    simp only [hinsert] at h
    split at h
    · split at h
      · cases h
        exact Extends.refl t
      · cases h
    · cases h

theorem insertExecutionCommandState_extends (state : ExecutionCommandState) :
    Script.Keeps Extends (insertExecutionCommandState state : Statement P F Bool) := by
  refine .bind Extends.trans (.query Extends.refl _) fun _ => .write fun t b t' h => ?_
  cases hinsert : t.states.insert state with
  | some states =>
    simp only [hinsert] at h
    cases h
    exact { Extends.refl t with states := Table.insert_extends hinsert }
  | none =>
    simp only [hinsert, bind_ok, exists_unit, pure_ok, Prod.mk.injEq] at h
    obtain ⟨_, -, -, -, rfl⟩ := h
    exact Extends.refl t

/-! ## the parts of a successful commit -/

/-- the states between the statements of a commit -/
structure Committed (codec : JournalCodec P F) (w : NewExecutionWorkflow F)
    (t t' : WorkflowTables P F) (stored : StoredExecutionWorkflow P F) where
  afterIntent : WorkflowTables P F
  afterRisk : WorkflowTables P F
  afterPlan : WorkflowTables P F
  afterCommands : WorkflowTables P F
  intent : Bool
  risk : Bool
  plan : Bool
  commands : Bool
  states : Bool
  valid : validateNewExecutionWorkflow w = .ok ()
  ofIntent : insertTradeIntent w.intent t = (.ok intent, afterIntent)
  ofRisk : insertRiskResult w.riskResult afterIntent = (.ok risk, afterRisk)
  ofPlan : insertExecutionPlan codec w.plan afterRisk = (.ok plan, afterPlan)
  ofCommands : Script.anyOf insertExecutionCommand w.commands afterPlan =
    (.ok commands, afterCommands)
  ofStates : Script.anyOf insertExecutionCommandState w.commandStates afterCommands = (.ok states, t')
  read : readBackWorkflow codec w t' = .ok stored

section
variable {codec : JournalCodec P F} {w : NewExecutionWorkflow F} {t t' : WorkflowTables P F}
  {stored : StoredExecutionWorkflow P F} {out : WriteOutcome (StoredExecutionWorkflow P F)}

theorem commitExecutionWorkflowOn_ok :
    commitExecutionWorkflowOn codec w t = (.ok out, t') ↔
      ∃ (stored : StoredExecutionWorkflow P F) (c : Committed codec w t t' stored),
        (if c.intent || c.risk || c.plan || c.commands || c.states then WriteOutcome.inserted stored
          else .duplicate stored) = out := by
  simp only [commitExecutionWorkflowOn, commitExecutionWorkflowInSavepoint, Script.bind_run,
    Script.query_run, Script.savepoint_run, Script.pure_run]
  constructor
  · rintro ⟨_, _, ⟨hvalid, rfl⟩, i, a, hi, r, b, hr, p, c, hp, cs, d, hcs, ss, e, hss, stored, _,
      ⟨hread, rfl⟩, rfl, rfl⟩
    exact ⟨stored, ⟨a, b, c, d, i, r, p, cs, ss, hvalid, hi, hr, hp, hcs, hss, hread⟩, rfl⟩
  · rintro ⟨stored, c, rfl⟩
    exact ⟨(), t, ⟨c.valid, rfl⟩, c.intent, c.afterIntent, c.ofIntent, c.risk, c.afterRisk, c.ofRisk,
      c.plan, c.afterPlan, c.ofPlan, c.commands, c.afterCommands, c.ofCommands, c.states, t',
      c.ofStates, stored, t', ⟨c.read, rfl⟩, rfl, rfl⟩

end

end

end Sinan.Store
