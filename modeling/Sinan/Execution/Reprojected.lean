import Sinan.Execution.Projector
import Sinan.Execution.State

/-!
# Projecting a plan again

A projection reads the definitions of a plan, the set of its command states and the set of its events,
and nothing else.  Later events keep what the fills have shown, whatever the commands go through.
-/

set_option linter.unusedSectionVars false

namespace Sinan.Execution

open Lib

section
variable {F : Type} [F64 F]

/-! ## one leg -/

/-- an event that the projection of its leg accepts -/
def Accepted (planId : PlanId) (accountId : AccountId) (leg : ExecutionLeg F)
    (command : ExecutionCommandState) (event : ExecutionEvent F) : Prop :=
  eventBelongs planId accountId leg command event = true ∧
    validateEventEvidence command event = .ok ()

variable {planId : PlanId} {accountId : AccountId} {command : ExecutionCommandState}

theorem validateEvents_iff {leg : ExecutionLeg F} {seen : List ExecutionId}
    {events : List (ExecutionEvent F)} :
    validateEvents planId accountId leg command seen events = .ok () ↔
      (events.map ExecutionEvent.executionId).Nodup ∧ (∀ event ∈ events, event.executionId ∉ seen) ∧
        ∀ event ∈ events, Accepted planId accountId leg command event := by
  induction events generalizing seen with
  | nil =>
    exact ⟨fun _ => ⟨List.nodup_nil, fun _ h => absurd h List.not_mem_nil,
      fun _ h => absurd h List.not_mem_nil⟩, fun _ => rfl⟩
  | cons event events ih =>
    simp only [validateEvents, bind_ok, exists_unit, reject_ok, not_or, Bool.not_eq_false, ih,
      List.map_cons, List.nodup_cons, List.forall_mem_cons, List.mem_append, List.mem_singleton,
      List.mem_map, not_exists, not_and]
    constructor
    · rintro ⟨⟨hfresh, hbelongs⟩, hevidence, hnodup, hunseen, haccepted⟩
      exact ⟨⟨fun other hother => (hunseen other hother).2, hnodup⟩,
        ⟨hfresh, fun other hother => (hunseen other hother).1⟩, ⟨hbelongs, hevidence⟩, haccepted⟩
    · rintro ⟨⟨hdistinct, hnodup⟩, ⟨hfresh, hunseen⟩, ⟨hbelongs, hevidence⟩, haccepted⟩
      exact ⟨⟨hfresh, hbelongs⟩, hevidence, hnodup,
        fun other hother => ⟨hunseen other hother, hdistinct other hother⟩, haccepted⟩

theorem validateEvents_perm {leg leg' : ExecutionLeg F} {events events' : List (ExecutionEvent F)}
    (hdefinition : leg'.definition = leg.definition) (hperm : events.Perm events')
    (h : validateEvents planId accountId leg command [] events = .ok ()) :
    validateEvents planId accountId leg' command [] events' = .ok () := by
  obtain ⟨hnodup, -, haccepted⟩ := validateEvents_iff.mp h
  refine validateEvents_iff.mpr ⟨(hperm.map _).nodup_iff.mp hnodup, fun _ _ => List.not_mem_nil, ?_⟩
  intro event hevent
  obtain ⟨hbelongs, hevidence⟩ := haccepted event (hperm.mem_iff.mpr hevent)
  unfold eventBelongs at hbelongs
  refine ⟨?_, hevidence⟩
  rw [eventBelongs, hdefinition]
  exact hbelongs

theorem hasEvent_perm {status : ExecutionEventStatus} {events events' : List (ExecutionEvent F)}
    (hperm : events.Perm events') : hasEvent status events' = hasEvent status events := by
  rw [Bool.eq_iff_iff, hasEvent, hasEvent, List.any_eq_true, List.any_eq_true]
  simp only [hperm.mem_iff]

theorem projectedStatus_perm {lifecycle : ExecutionLegStatus} {events events' : List (ExecutionEvent F)}
    (hperm : events.Perm events') :
    projectedStatus lifecycle events' = projectedStatus lifecycle events := by
  unfold projectedStatus
  rw [hasEvent_perm hperm, hasEvent_perm hperm]

theorem projectLeg_perm {leg leg' out : ExecutionLeg F}
    {states states' : List ExecutionCommandState} {events events' : List (ExecutionEvent F)}
    (hdefinition : leg'.definition = leg.definition) (hstates : states.Perm states')
    (hevents : events.Perm events') (h : projectLeg planId accountId leg states events = .ok out) :
    projectLeg planId accountId leg' states' events' = .ok out := by
  unfold projectLeg at h
  split at h
  case h_1 command =>
    obtain rfl := List.singleton_perm.mp hstates
    simp only [bind_ok, exists_unit, pure_ok] at h
    obtain ⟨hidentity, hvalid, lifecycle, hlifecycle, rfl⟩ := h
    simp only [projectLeg, bind_ok, exists_unit, pure_ok, hdefinition]
    refine ⟨hidentity, validateEvents_perm hdefinition hevents hvalid, lifecycle, hlifecycle, ?_⟩
    rw [projectedStatus_perm hevents, ← hdefinition]
  case h_2 => cases h

/-! ## the plan -/

/-- the same plan up to the projected states -/
structure SameDefinitions (plan plan' : ExecutionPlan F) : Prop where
  definition : plan'.definition = plan.definition
  legs : plan'.legs.map ExecutionLeg.definition = plan.legs.map ExecutionLeg.definition

/-- everything that a projection has checked -/
structure Projected (plan : ExecutionPlan F) (states : List ExecutionCommandState)
    (events : List (ExecutionEvent F)) (projected : ExecutionPlan F) : Prop where
  nonempty : plan.legs.isEmpty = false
  count : states.length = plan.legs.length
  identity : ∀ state ∈ states, state.accountId = plan.definition.accountId ∧
    state.planId = some plan.definition.planId
  legs : List.Forall₂ (fun leg out => projectLeg plan.definition.planId plan.definition.accountId
    leg (statesOf leg.definition.legId states) (eventsOf leg.definition.legId events) = .ok out)
    plan.legs projected.legs
  covered : ∀ event ∈ events, ∃ leg ∈ projected.legs, event.legId = some leg.definition.legId
  definition : projected.definition = plan.definition
  state : projected.state = derivedState projected.legs
  valid : projected.validate = .ok ()

theorem projectPlan_iff {plan projected : ExecutionPlan F} {states : List ExecutionCommandState}
    {events : List (ExecutionEvent F)} :
    projectPlan plan states events = .ok projected ↔ Projected plan states events projected := by
  simp only [projectPlan, bind_ok, exists_unit, reject_ok, pure_ok, collect_ok, not_not, ne_eq,
    Bool.not_eq_true, Bool.or_eq_true, bne_iff_ne, not_or, Bool.not_eq_true', List.any_eq_true,
    List.any_eq_false, beq_iff_eq, not_exists, not_and, not_forall, exists_prop]
  constructor
  · rintro ⟨hnonempty, hcount, hidentity, legs, hlegs, hcovered, hvalid, rfl⟩
    exact ⟨hnonempty, hcount, hidentity, hlegs, hcovered, rfl, rfl, hvalid⟩
  · intro h
    obtain ⟨definition, legs, state⟩ := projected
    obtain rfl : definition = plan.definition := h.definition
    obtain rfl : state = derivedState legs := h.state
    exact ⟨h.nonempty, h.count, h.identity, legs, h.legs, h.covered, h.valid, rfl⟩

section
variable {plan plan' projected : ExecutionPlan F} {states states' : List ExecutionCommandState}
  {events events' : List (ExecutionEvent F)}

theorem SameDefinitions.paired (h : SameDefinitions plan plan') :
    List.Forall₂ (fun leg leg' => ExecutionLeg.definition leg' = leg.definition) plan.legs
      plan'.legs := by
  have heq := h.legs.symm
  rw [← List.forall₂_eq_eq_eq, List.forall₂_map_left_iff, List.forall₂_map_right_iff] at heq
  exact heq.imp fun _ _ hleg => hleg.symm

theorem SameDefinitions.symm (h : SameDefinitions plan plan') : SameDefinitions plan' plan :=
  ⟨h.definition.symm, h.legs.symm⟩

theorem Projected.definitions (h : Projected plan states events projected) :
    SameDefinitions plan projected := by
  refine ⟨h.definition, ?_⟩
  rw [← List.forall₂_eq_eq_eq, List.forall₂_map_left_iff, List.forall₂_map_right_iff]
  exact h.legs.flip.imp fun _ _ hleg => (projectLeg_ok hleg).1

theorem Projected.perm (h : Projected plan states events projected)
    (hsame : SameDefinitions plan plan') (hstates : states.Perm states') (hevents : events.Perm events') :
    Projected plan' states' events' projected := by
  have hpaired := hsame.paired
  have hlength : plan'.legs.length = plan.legs.length := hpaired.length_eq.symm
  refine ⟨?_, ?_, ?_, ?_, ?_, h.definition.trans hsame.definition.symm, h.state, h.valid⟩
  · have hnonempty := h.nonempty
    rw [List.isEmpty_eq_false_iff, ← List.length_pos_iff] at hnonempty ⊢
    rw [hlength]
    exact hnonempty
  · rw [← hstates.length_eq, hlength, h.count]
  · intro state hstate
    rw [hsame.definition]
    exact h.identity state (hstates.mem_iff.mpr hstate)
  · rw [hsame.definition]
    refine forall₂_through (fun leg leg' out hdefinition hout => ?_) hpaired h.legs
    rw [hdefinition]
    exact projectLeg_perm hdefinition (hstates.filter _) (hevents.filter _) hout
  · exact fun event hevent => h.covered event (hevents.mem_iff.mpr hevent)

/-! ## later events -/

/-- the command of a leg is where it was -/
def CommandStays (legId : LegId) (states states' : List ExecutionCommandState) : Prop :=
  ∀ command ∈ statesOf legId states, ∀ command' ∈ statesOf legId states',
    command'.status = command.status

/-- a fill in part stays one until the leg is filled: shown by an event always, and shown by the
status of the command while that stays; a fill that an event has shown stays -/
structure FillKept (states states' : List ExecutionCommandState) (events : List (ExecutionEvent F))
    (leg leg' : ExecutionLeg F) : Prop where
  definition : leg'.definition = leg.definition
  part : leg.state.status = .partiallyFilled →
    (hasEvent .partiallyFilled (eventsOf leg.definition.legId events) = true ∨
      CommandStays leg.definition.legId states states') →
    leg'.state.status = .partiallyFilled ∨ leg'.state.status = .filled
  full : leg.state.status = .filled → hasEvent .filled (eventsOf leg.definition.legId events) = true →
    leg'.state.status = .filled

variable {more : List (ExecutionEvent F)} {lifecycle : ExecutionLegStatus}

theorem hasEvent_more {status : ExecutionEventStatus} {legId : LegId}
    (h : hasEvent status (eventsOf legId events) = true) :
    hasEvent status (eventsOf legId (events ++ more)) = true := by
  unfold hasEvent eventsOf at h ⊢
  rw [List.filter_append, List.any_append, h, Bool.true_or]

theorem projectedStatus_filled (h : hasEvent .filled events = true) :
    projectedStatus lifecycle events = .filled := by
  unfold projectedStatus
  rw [if_pos h]

theorem projectedStatus_part
    (h : hasEvent .partiallyFilled events = true ∨ lifecycle = .partiallyFilled) :
    projectedStatus lifecycle events = .partiallyFilled ∨ projectedStatus lifecycle events = .filled := by
  by_cases hfilled : hasEvent .filled events = true
  · exact .inr (projectedStatus_filled hfilled)
  · rw [Bool.not_eq_true] at hfilled
    exact .inl (projectedStatus_partiallyFilled.mpr ⟨hfilled, h⟩)

theorem projectLeg_kept {planId : PlanId} {accountId : AccountId} {leg out out' : ExecutionLeg F}
    (h : projectLeg planId accountId leg (statesOf leg.definition.legId states)
      (eventsOf leg.definition.legId events) = .ok out)
    (h' : projectLeg planId accountId leg (statesOf leg.definition.legId states')
      (eventsOf leg.definition.legId (events ++ more)) = .ok out') :
    FillKept states states' events out out' := by
  obtain ⟨hout, command, lifecycle, hstates, hlifecycle, hstatus⟩ := projectLeg_ok h
  obtain ⟨hout', command', lifecycle', hstates', hlifecycle', hstatus'⟩ := projectLeg_ok h'
  refine ⟨hout'.trans hout.symm, ?_, ?_⟩
  · intro hpart hwhy
    rw [hstatus']
    rw [hout] at hwhy
    apply projectedStatus_part
    rcases hwhy with hevent | hstays
    · exact .inl (hasEvent_more hevent)
    · rw [hstatus, projectedStatus_partiallyFilled] at hpart
      rcases hpart.2 with hevent | rfl
      · exact .inl (hasEvent_more hevent)
      · -- the command alone has shown the fill, and it is where it was
        unfold CommandStays at hstays
        rw [hstates, hstates'] at hstays
        have hsame := hstays command List.mem_cons_self command' List.mem_cons_self
        rw [hsame, hlifecycle] at hlifecycle'
        exact .inr (Except.ok.inj hlifecycle').symm
  · intro _ hevent
    rw [hout] at hevent
    rw [hstatus']
    exact projectedStatus_filled (hasEvent_more hevent)

/-- A projection depends on the definitions of the plan and the sets of states and events; it keeps
the definitions, is valid and is its own projection; and later events keep the fills it shows. -/
theorem projectPlan_stable (h : projectPlan plan states events = .ok projected) :
    (∀ plan' states' events', SameDefinitions plan plan' → states.Perm states' → events.Perm events' →
      projectPlan plan' states' events' = .ok projected) ∧
    projectPlan projected states events = .ok projected ∧
    SameDefinitions plan projected ∧ projected.validate = .ok () ∧
    ∀ plan' states' more projected', SameDefinitions plan plan' →
      projectPlan plan' states' (events ++ more) = .ok projected' →
      List.Forall₂ (FillKept states states' events) projected.legs projected'.legs := by
  have hprojected := projectPlan_iff.mp h
  have hpermuted : ∀ plan' states' events', SameDefinitions plan plan' → states.Perm states' →
      events.Perm events' → projectPlan plan' states' events' = .ok projected :=
    fun _ _ _ hsame hstates hevents => projectPlan_iff.mpr (hprojected.perm hsame hstates hevents)
  refine ⟨hpermuted, ?_, hprojected.definitions, hprojected.valid, ?_⟩
  · exact hpermuted projected states events hprojected.definitions (List.Perm.refl _) (List.Perm.refl _)
  · intro plan' states' more projected' hsame h'
    have hprojected' := projectPlan_iff.mp h'
    have hagain := hprojected'.perm hsame.symm (List.Perm.refl _) (List.Perm.refl _)
    refine forall₂_through ?_ hprojected.legs hagain.legs
    exact fun _ _ _ hout hout' => projectLeg_kept hout hout'

end

end

/-! ## a fill that only its command shows -/

def silverLeg : ExecutionLegDefinition ℚ where
  legId := "leg-1"
  symbol := "XAGUSD"
  action := .buy
  lots := some 1
  sl := none
  tp := none
  ratio := 1
  dependency := []

/-- one leg, at some status -/
def silverPlan (status : ExecutionLegStatus) : ExecutionPlan ℚ where
  definition :=
    { planId := "plan-1", accountId := "account-1", strategyId := "strategy-1", mode := .simultaneous
      failurePolicy := .cancelAll, rollbackPolicy := none }
  legs := [⟨silverLeg, ⟨status⟩⟩]
  state := derivedState [⟨silverLeg, ⟨status⟩⟩]

def silverState (status : ExecutionCommandStatus) : ExecutionCommandState where
  commandId := "command-1"
  accountId := "account-1"
  planId := some "plan-1"
  legId := some "leg-1"
  status := status
  deliveryAttempts := 1
  lastDeliveryError := none
  createdAt := 10000
  dispatchedAt := some 10500
  commandReceivedAt := none
  reconcilingAt := none
  completedAt := none
  updatedAt := 10500

def silverEvent (status : ExecutionEventStatus) (executionId : ExecutionId) : ExecutionEvent ℚ where
  executionId := executionId
  commandId := "command-1"
  planId := some "plan-1"
  legId := some "leg-1"
  accountId := "account-1"
  terminalId := none
  clientId := none
  symbol := "XAGUSD"
  brokerSymbol := none
  status := status
  brokerOrderId := none
  brokerDealId := none
  positionTicket := none
  idempotencyKey := none
  requestedLots := some 1
  fillPrice := some 25
  filledLots := some (1 / 2)
  remainingLots := some (1 / 2)
  eventAt := 12000
  filledAt := some 11000
  brokerFilledAt := none
  errorCode := none
  message := none

/-- a fill in part that no event has shown is gone when the command is cancelled -/
theorem fill_unshown_lost :
    transitionIsAllowed .partiallyFilled .cancelled = true ∧
    projectPlan (silverPlan .pending) [silverState .partiallyFilled] []
      = .ok (silverPlan .partiallyFilled) ∧
    projectPlan (silverPlan .partiallyFilled) [silverState .cancelled] ([] ++ [])
      = .ok (silverPlan .cancelled) := by
  decide +kernel

/-- with its event the fill is kept -/
theorem silver_stable : List.Forall₂ (FillKept [silverState .partiallyFilled] [silverState .cancelled]
    [silverEvent .partiallyFilled "execution-1"]) (silverPlan .partiallyFilled).legs
    (silverPlan .partiallyFilled).legs :=
  (@projectPlan_stable ℚ _ (silverPlan .pending) (silverPlan .partiallyFilled)
    [silverState .partiallyFilled] [silverEvent .partiallyFilled "execution-1"]
    (by decide +kernel)).2.2.2.2 (silverPlan .partiallyFilled) [silverState .cancelled] []
    (silverPlan .partiallyFilled) ⟨rfl, rfl⟩ (by decide +kernel)

end Sinan.Execution
