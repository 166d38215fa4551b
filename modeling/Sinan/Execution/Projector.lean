import Sinan.Types.Plan

/-!
# Projection of a plan

`projectPlan` recomputes the leg states of a plan from the states of its commands and the stored
execution events, and derives the summaries and the status from the legs.
-/

set_option linter.unusedSectionVars false

namespace Sinan.Execution

open Lib

inductive ProjectionError where
  | identityMismatch (reason : String)
  | unsupportedCommandCardinality
  | deliveryFailedDeferred
  | emptyPlan
  deriving DecidableEq

abbrev Projection := Except ProjectionError

section
variable {F : Type} [F64 F]

def ExecutionEventStatus.isFill : ExecutionEventStatus → Bool
  | .partiallyFilled | .filled => true
  | _ => false

/-! ## one leg -/

/-- an event is evidence about the command of the leg -/
def eventBelongs (planId : PlanId) (accountId : AccountId) (leg : ExecutionLeg F)
    (command : ExecutionCommandState) (event : ExecutionEvent F) : Bool :=
  !blank event.executionId && event.commandId == command.commandId &&
  event.accountId == accountId && event.planId == some planId && event.legId == command.legId &&
  event.symbol == leg.definition.symbol && decide (command.createdAt ≤ event.eventAt)

/-- `filled_at` and `filled_lots` prove the exposure of a fill -/
def fillProven (command : ExecutionCommandState) (event : ExecutionEvent F) : Bool :=
  match event.filledAt, event.filledLots with
  | some filledAt, some lots =>
    F64.isFinite lots && !F64.le lots F64.zero &&
    decide (command.createdAt ≤ filledAt) && decide (filledAt ≤ event.eventAt)
  | _, _ => false

def eventNumbersValid (event : ExecutionEvent F) : Bool :=
  [event.requestedLots, event.fillPrice, event.filledLots, event.remainingLots].all fun value =>
    value.all fun v => F64.isFinite v && !F64.lt v F64.zero

def validateEventEvidence (command : ExecutionCommandState) (event : ExecutionEvent F) :
    Projection Unit := do
  if ExecutionEventStatus.isFill event.status then
    reject (fillProven command event = false)
      (.identityMismatch "fill event lacks positive exposure evidence")
  else
    reject event.filledAt.isSome (.identityMismatch "non-fill event carries filled_at")
  reject (eventNumbersValid event = false)
    (.identityMismatch "execution event contains an invalid numeric value")

/-- the loop over the events; an id seen before is refused with the other identity faults -/
def validateEvents (planId : PlanId) (accountId : AccountId) (leg : ExecutionLeg F)
    (command : ExecutionCommandState) (seen : List ExecutionId) :
    List (ExecutionEvent F) → Projection Unit
  | [] => .ok ()
  | event :: rest => do
    reject (event.executionId ∈ seen ∨ eventBelongs planId accountId leg command event = false)
      (.identityMismatch "execution event does not belong to the projected leg command")
    validateEventEvidence command event
    validateEvents planId accountId leg command (seen ++ [event.executionId]) rest

/-- the leg status a command status stands for -/
def lifecycleStatus : ExecutionCommandStatus → Projection ExecutionLegStatus
  | .created => .ok .pending
  | .dispatched => .ok .sent
  | .deliveryUnconfirmed => .ok .deliveryUnconfirmed
  | .deliveryFailed => .error .deliveryFailedDeferred
  | .reconciling => .ok .reconciling
  | .manualReconciliationRequired => .ok .manualReconciliationRequired
  | .commandReceived => .ok .commandReceived
  | .accepted => .ok .accepted
  | .rejected => .ok .rejected
  | .orderSent => .ok .orderSent
  | .partiallyFilled => .ok .partiallyFilled
  | .filled => .ok .filled
  | .failed => .ok .failed
  | .expired => .ok .expired
  | .cancelled => .ok .cancelled

def hasEvent (status : ExecutionEventStatus) (events : List (ExecutionEvent F)) : Bool :=
  events.any fun event => decide (event.status = status)

/-- a fill event outranks the status of the command -/
def projectedStatus (lifecycle : ExecutionLegStatus) (events : List (ExecutionEvent F)) :
    ExecutionLegStatus :=
  if hasEvent .filled events then .filled
  else if hasEvent .partiallyFilled events then .partiallyFilled
  else lifecycle

def projectLeg (planId : PlanId) (accountId : AccountId) (leg : ExecutionLeg F)
    (commandStates : List ExecutionCommandState) (events : List (ExecutionEvent F)) :
    Projection (ExecutionLeg F) :=
  match commandStates with
  | [command] => do
    reject (command.accountId ≠ accountId ∨ command.planId ≠ some planId ∨
        command.legId ≠ some leg.definition.legId)
      (.identityMismatch "command state account/plan/leg identity differs from the projected leg")
    validateEvents planId accountId leg command [] events
    let lifecycle ← lifecycleStatus command.status
    return { leg with state := { status := projectedStatus lifecycle events } }
  | _ => .error .unsupportedCommandCardinality

/-! ## the plan -/

def statesOf (legId : LegId) (states : List ExecutionCommandState) : List ExecutionCommandState :=
  states.filter fun state => state.legId == some legId

def eventsOf (legId : LegId) (events : List (ExecutionEvent F)) : List (ExecutionEvent F) :=
  events.filter fun event => event.legId == some legId

/-- summaries and status from the projected legs -/
def derivedState (legs : List (ExecutionLeg F)) : ExecutionPlanState where
  status := deriveExecutionPlanStatus legs
  filledLegs := summaryOf ExecutionLegStatus.isFilled legs
  failedLegs := summaryOf ExecutionLegStatus.isFailed legs

def projectPlan (plan : ExecutionPlan F) (commandStates : List ExecutionCommandState)
    (events : List (ExecutionEvent F)) : Projection (ExecutionPlan F) := do
  reject plan.legs.isEmpty .emptyPlan
  reject (commandStates.length ≠ plan.legs.length) .unsupportedCommandCardinality
  reject (commandStates.any fun state => state.accountId != plan.definition.accountId ||
      state.planId != some plan.definition.planId)
    (.identityMismatch "command state account/plan identity differs from the plan")
  let legs ← collect (fun leg => projectLeg plan.definition.planId plan.definition.accountId leg
    (statesOf leg.definition.legId commandStates) (eventsOf leg.definition.legId events)) plan.legs
  reject (events.any fun event => !legs.any fun leg => event.legId == some leg.definition.legId)
    (.identityMismatch "execution event references a leg outside the plan")
  let projected := { plan with legs := legs, state := derivedState legs }
  reject (projected.validate ≠ .ok ()) (.identityMismatch "projected plan is invalid")
  return projected

/-! ## what a projection is -/

variable {states : List ExecutionCommandState} {events : List (ExecutionEvent F)}

theorem projectLeg_ok {planId : PlanId} {accountId : AccountId} {leg projected : ExecutionLeg F}
    (h : projectLeg planId accountId leg states events = .ok projected) :
    projected.definition = leg.definition ∧
      ∃ command lifecycle, states = [command] ∧ lifecycleStatus command.status = .ok lifecycle ∧
        projected.state.status = projectedStatus lifecycle events := by
  unfold projectLeg at h
  split at h
  case h_1 command =>
    simp only [bind_ok, exists_unit, pure_ok] at h
    obtain ⟨-, -, lifecycle, hlifecycle, rfl⟩ := h
    exact ⟨rfl, command, lifecycle, rfl, hlifecycle, rfl⟩
  case h_2 => cases h

/-- the plan keeps its definitions, its state is derived and it is valid -/
structure Projects (plan : ExecutionPlan F) (states : List ExecutionCommandState)
    (events : List (ExecutionEvent F)) (projected : ExecutionPlan F) : Prop where
  definition : projected.definition = plan.definition
  legs : List.Forall₂ (fun leg out => projectLeg plan.definition.planId plan.definition.accountId
    leg (statesOf leg.definition.legId states) (eventsOf leg.definition.legId events) = .ok out)
    plan.legs projected.legs
  state : projected.state = derivedState projected.legs
  valid : projected.validate = .ok ()

theorem projectPlan_ok {plan projected : ExecutionPlan F}
    (h : projectPlan plan states events = .ok projected) :
    Projects plan states events projected := by
  simp only [projectPlan, bind_ok, exists_unit, reject_ok, pure_ok, collect_ok, not_not] at h
  obtain ⟨-, -, -, legs, hlegs, -, hvalid, rfl⟩ := h
  exact ⟨rfl, hlegs, rfl, hvalid⟩

/-- some leg has evidence of a fill in part, and no event of a full fill -/
def BarePartialFill (plan : ExecutionPlan F) (states : List ExecutionCommandState)
    (events : List (ExecutionEvent F)) : Prop :=
  ∃ leg ∈ plan.legs, hasEvent .filled (eventsOf leg.definition.legId events) = false ∧
    (hasEvent .partiallyFilled (eventsOf leg.definition.legId events) = true ∨
      ∃ command ∈ statesOf leg.definition.legId states, command.status = .partiallyFilled)

theorem lifecycleStatus_partiallyFilled {status : ExecutionCommandStatus} :
    lifecycleStatus status = .ok .partiallyFilled ↔ status = .partiallyFilled := by
  cases status <;> simp [lifecycleStatus]

theorem projectedStatus_partiallyFilled {lifecycle : ExecutionLegStatus} :
    projectedStatus lifecycle events = .partiallyFilled ↔ hasEvent .filled events = false ∧
      (hasEvent .partiallyFilled events = true ∨ lifecycle = .partiallyFilled) := by
  unfold projectedStatus
  by_cases hfilled : hasEvent .filled events = true
  · rw [if_pos hfilled, hfilled]
    exact ⟨fun h => (by cases h), fun h => (by cases h.1)⟩
  · rw [if_neg hfilled]
    rw [Bool.not_eq_true] at hfilled
    by_cases hpart : hasEvent .partiallyFilled events = true
    · rw [if_pos hpart]
      exact ⟨fun _ => ⟨hfilled, .inl hpart⟩, fun _ => rfl⟩
    · rw [if_neg hpart]
      exact ⟨fun h => ⟨hfilled, .inr h⟩, fun h => h.2.resolve_left hpart⟩

theorem Projects.partiallyFilled_iff {plan projected : ExecutionPlan F}
    (h : Projects plan states events projected) :
    (∃ leg ∈ projected.legs, leg.state.status = .partiallyFilled) ↔
      BarePartialFill plan states events := by
  have hleg : ∀ leg out, projectLeg plan.definition.planId plan.definition.accountId leg
      (statesOf leg.definition.legId states) (eventsOf leg.definition.legId events) = .ok out →
      (out.state.status = .partiallyFilled ↔
        hasEvent .filled (eventsOf leg.definition.legId events) = false ∧
        (hasEvent .partiallyFilled (eventsOf leg.definition.legId events) = true ∨
          ∃ command ∈ statesOf leg.definition.legId states, command.status = .partiallyFilled)) := by
    intro leg out hout
    obtain ⟨-, command, lifecycle, hstates, hlifecycle, hstatus⟩ := projectLeg_ok hout
    rw [hstatus, projectedStatus_partiallyFilled, hstates]
    have hcommand : lifecycle = .partiallyFilled ↔
        ∃ c ∈ [command], c.status = .partiallyFilled := by
      rw [← Except.ok.injEq, ← hlifecycle, lifecycleStatus_partiallyFilled]
      simp only [List.mem_singleton, exists_eq_left]
    rw [hcommand]
  constructor
  · rintro ⟨out, hout, hstatus⟩
    obtain ⟨leg, hmem, hproject⟩ := forall₂_mem_right h.legs hout
    exact ⟨leg, hmem, (hleg leg out hproject).mp hstatus⟩
  · rintro ⟨leg, hmem, hbare⟩
    obtain ⟨out, hout, hproject⟩ := forall₂_mem_right h.legs.flip hmem
    exact ⟨out, hout, (hleg leg out hproject).mpr hbare⟩

end

end Sinan.Execution
