import Sinan.Risk.Exact

/-!
# Two requests compared

What one more position, order or command can do to an approval, what a larger proposed risk can do to
it, and what the order of the lists of a request can do to it.
-/

namespace Sinan.Risk

open Lib
open Breaker

/-! ## one row more, and more risk -/

/-- one more position, order or pending command with its own state, anywhere in its list -/
inductive OneMore (request : RiskRequest ℚ) : RiskRequest ℚ → Prop
  | position (left right : List (PositionSnapshot ℚ)) (position : PositionSnapshot ℚ)
      (h : request.positions = left ++ right) :
      OneMore request { request with positions := left ++ position :: right }
  | order (left right : List (OrderSnapshot ℚ)) (order : OrderSnapshot ℚ)
      (h : request.orders = left ++ right) :
      OneMore request { request with orders := left ++ order :: right }
  | command (left right : List (ExecutionCommand ℚ)) (states states' : List ExecutionCommandState)
      (command : ExecutionCommand ℚ) (state : ExecutionCommandState)
      (h : request.pendingCommands = left ++ right)
      (hstates : request.pendingCommandStates = states ++ states')
      (hown : state.commandId = command.commandId)
      (hfresh : ∀ other ∈ request.pendingCommands, other.commandId ≠ command.commandId) :
      OneMore request { request with
        pendingCommands := left ++ command :: right
        pendingCommandStates := states ++ state :: states' }

/-- the same signal with another proposed risk -/
def RiskRequest.proposing (request : RiskRequest ℚ) (risk : ℚ) : RiskRequest ℚ :=
  { request with
    decision := { request.decision with proposedRiskPct := risk }
    intent := { request.intent with proposedRiskPct := risk } }

/-- the proposed risk passes the checks of its action -/
structure Proposable (request : RiskRequest ℚ) (risk : ℚ) : Prop where
  shape : validateActionShape (request.proposing risk) = .ok ()
  percentage : request.intent.action = .buy ∨ request.intent.action = .sell →
    validatePercentage "proposed_risk_pct" risk true = .ok ()

theorem subperm_insert {α : Type} (x : α) (left right : List α) :
    (left ++ right).Subperm (left ++ x :: right) :=
  ((List.sublist_cons_self x right).append_left left).subperm

section
variable {request : RiskRequest ℚ}

theorem Eased.refl (request : RiskRequest ℚ) : Eased request request.shape where
  risk := .inl ⟨rfl, rfl⟩
  legs := by
    show Option.Rel List.Perm request.intent.proposedLegs request.intent.proposedLegs
    cases request.intent.proposedLegs with
    | none => exact Option.Rel.none
    | some legs => exact Option.Rel.some (List.Perm.refl legs)
  positions := List.Subperm.refl _
  orders := List.Subperm.refl _
  pendingCommands := List.Subperm.refl _
  pendingCommandStates := List.Subperm.refl _
  ownStates := fun _ _ _ hstate _ => hstate
  paired := id
  symbolMetadata := List.Perm.refl _
  markets := List.Perm.refl _
  sizingCandidates := List.Perm.refl _

theorem OneMore.eased {more : RiskRequest ℚ} (h : OneMore request more) :
    Eased more request.shape ∧ more.reshape request.shape = request := by
  cases h with
  | position left right position h =>
    refine ⟨{ Eased.refl request with positions := ?_ }, rfl⟩
    show request.positions.Subperm (left ++ position :: right)
    rw [h]
    exact subperm_insert position left right
  | order left right order h =>
    refine ⟨{ Eased.refl request with orders := ?_ }, rfl⟩
    show request.orders.Subperm (left ++ order :: right)
    rw [h]
    exact subperm_insert order left right
  | command left right states states' command state h hstates hown hfresh =>
    refine ⟨{ Eased.refl request with
      pendingCommands := ?_, pendingCommandStates := ?_, ownStates := ?_, paired := ?_ }, rfl⟩
    · show request.pendingCommands.Subperm (left ++ command :: right)
      rw [h]
      exact subperm_insert command left right
    · show request.pendingCommandStates.Subperm (states ++ state :: states')
      rw [hstates]
      exact subperm_insert state states states'
    · intro other hother found hfound hid
      show found ∈ request.pendingCommandStates
      rw [hstates]
      rcases List.mem_append.mp hfound with hfound | hfound
      · exact List.mem_append_left _ hfound
      · rcases List.mem_cons.mp hfound with rfl | hfound
        · -- the state of the fresh command is no other command's
          exact absurd (hid.symm.trans hown) (hfresh other hother)
        · exact List.mem_append_right _ hfound
    · intro hpaired
      show request.pendingCommands.length = request.pendingCommandStates.length
      have hlength : (left ++ command :: right).length = (states ++ state :: states').length := hpaired
      rw [List.length_append, List.length_append, List.length_cons, List.length_cons] at hlength
      rw [h, hstates, List.length_append, List.length_append]
      omega

theorem Proposable.eased {risk : ℚ} (h : Proposable request risk)
    (haction : request.intent.action = .buy ∨ request.intent.action = .sell)
    (hle : request.intent.proposedRiskPct ≤ risk) :
    Eased request { request.shape with decisionRisk := risk, proposedRisk := risk } :=
  { Eased.refl request with risk := .inr ⟨hle, rfl, h.percentage haction, h.shape⟩ }

theorem validateActionShape_hold (haction : request.intent.action = .hold)
    (h : validateActionShape request = .ok ()) : request.intent.proposedRiskPct = 0 := by
  simp only [validateActionShape, haction, bind_ok, exists_unit, reject_ok, not_or,
    Bool.not_eq_false] at h
  have heq : decide (request.intent.proposedRiskPct = ((0 : Int) : ℚ)) = true := h.2.1
  rw [Int.cast_zero] at heq
  exact of_decide_eq_true heq

theorem validateRequestIdentity_risk (h : validateRequestIdentity request = .ok ()) :
    request.decision.proposedRiskPct = request.intent.proposedRiskPct := by
  simp only [validateRequestIdentity, bind_ok, exists_unit, reject_ok, Bool.not_eq_false] at h
  obtain ⟨-, -, hmatches, -⟩ := h
  simp only [decisionMatches, Bool.and_eq_true] at hmatches
  obtain ⟨⟨⟨⟨⟨-, hrisk⟩, -⟩, -⟩, -⟩, -⟩ := hmatches
  by_contra hne
  unfold sameFloat sameF64Bits F64.sameBits at hrisk
  have hbits : (true && true && (if request.decision.proposedRiskPct = request.intent.proposedRiskPct
      then 0 else 256) == 0) = true := hrisk
  rw [if_neg hne] at hbits
  exact absurd hbits (by decide)

theorem reshape_proposing (request : RiskRequest ℚ) (risk : ℚ) :
    request.reshape { request.shape with decisionRisk := risk, proposedRisk := risk }
      = request.proposing risk :=
  rfl

theorem Proposable.hold {risk : ℚ} (h : Proposable request risk)
    (haction : request.intent.action = .hold) (hshaped : Shaped request) :
    request.proposing risk = request := by
  have hrisk : risk = 0 := @validateActionShape_hold (request.proposing risk) haction h.shape
  have hintent := validateActionShape_hold haction hshaped.2
  have hdecision := (validateRequestIdentity_risk hshaped.1).trans hintent
  obtain ⟨_, _, _, decision, intent, _, _, _, _, _, _, _, _, _, _, _, _, _⟩ := request
  cases decision
  cases intent
  cases hintent
  cases hdecision
  cases hrisk
  rfl

end

/-- One more position, order or pending command never makes an approval and never adds lots, and a
larger proposed risk never ends an approval and never takes lots away. -/
theorem hard_risk_monotone (digest : RequestDigest ℚ) (request : RiskRequest ℚ)
    (breaker : CircuitBreakerState) :
    (∀ more, OneMore request more → ∀ result, evaluate digest more breaker = .ok result →
      result.approved = true → ∃ without, evaluate digest request breaker = .ok without ∧
        without.approved = true ∧ LotsGrow result without) ∧
    (∀ risk, request.intent.proposedRiskPct ≤ risk → Proposable request risk → ∀ result,
      evaluate digest request breaker = .ok result → result.approved = true →
      ∃ riskier, evaluate digest (request.proposing risk) breaker = .ok riskier ∧
        riskier.approved = true ∧ LotsGrow result riskier) := by
  constructor
  · intro more hmore result h happroved
    obtain ⟨heased, hback⟩ := hmore.eased
    have hresult := evaluate_eased h happroved heased
    rw [hback] at hresult
    exact hresult
  · intro risk hle hproposable result h happroved
    obtain ⟨approval, hinner, hdraft, -⟩ := evaluate_approved h happroved
    cases approval with
    | noOp validUntil =>
      have hsame := hproposable.hold (evaluateInner_noOp hinner) (evaluateInner_shaped hinner)
      rw [hsame]
      refine ⟨result, h, happroved, ?_⟩
      rw [hdraft]
      exact Option.Rel.none
    | actionable approval =>
      obtain ⟨haction, -, -⟩ := evaluateInner_actionable hinner
      have hresult := evaluate_eased h happroved (hproposable.eased haction hle)
      rw [reshape_proposing] at hresult
      exact hresult

theorem approved_result {digest : RequestDigest ℚ} {request : RiskRequest ℚ}
    {breaker : CircuitBreakerState}
    (h : (evaluate digest request breaker).toOption.map RiskResult.approved = some true) :
    ∃ result, evaluate digest request breaker = .ok result ∧ result.approved = true := by
  cases hresult : evaluate digest request breaker with
  | error error =>
    rw [hresult] at h
    exact (nomatch h)
  | ok result =>
    rw [hresult] at h
    exact ⟨result, rfl, Option.some.inj h⟩

/-- gold beside a position that is being closed, and gold with half a percent proposed -/
theorem gold_monotone :
    (∃ without, evaluate goldDigest goldRequest CircuitBreakerState.new = .ok without ∧
      without.approved = true) ∧
    (∃ riskier, evaluate goldDigest ((goldRequest.proposing (1 / 2)).proposing 1)
        CircuitBreakerState.new = .ok riskier ∧ riskier.approved = true) := by
  obtain ⟨closing, hclosing, happroved⟩ := @approved_result goldDigest closingRequest
    CircuitBreakerState.new (by decide +kernel)
  obtain ⟨half, hhalf, happroved'⟩ := @approved_result goldDigest (goldRequest.proposing (1 / 2))
    CircuitBreakerState.new (by decide +kernel)
  constructor
  · obtain ⟨without, hwithout, h, -⟩ := (hard_risk_monotone goldDigest goldRequest
      CircuitBreakerState.new).1 closingRequest
      (.command [] [] [] [] closingCommand closingState rfl rfl rfl (by decide)) closing hclosing
      happroved
    exact ⟨without, hwithout, h⟩
  · obtain ⟨riskier, hriskier, h, -⟩ := (hard_risk_monotone goldDigest (goldRequest.proposing (1 / 2))
      CircuitBreakerState.new).2 1 (by decide +kernel) ⟨by decide +kernel, fun _ => by decide +kernel⟩
      half hhalf happroved'
    exact ⟨riskier, hriskier, h⟩

/-! ## the order of the lists -/

/-- the same request with its lists in another order -/
structure Permuted (request request' : RiskRequest ℚ) : Prop where
  positions : request.positions.Perm request'.positions
  orders : request.orders.Perm request'.orders
  symbolMetadata : request.symbolMetadata.Perm request'.symbolMetadata
  markets : request.markets.Perm request'.markets
  pendingCommands : request.pendingCommands.Perm request'.pendingCommands
  pendingCommandStates : request.pendingCommandStates.Perm request'.pendingCommandStates
  sizingCandidates : request.sizingCandidates.Perm request'.sizingCandidates
  legs : Option.Rel List.Perm request.intent.proposedLegs request'.intent.proposedLegs
  rest : request' = { request with
    intent := { request.intent with proposedLegs := request'.intent.proposedLegs }
    positions := request'.positions
    orders := request'.orders
    symbolMetadata := request'.symbolMetadata
    markets := request'.markets
    pendingCommands := request'.pendingCommands
    pendingCommandStates := request'.pendingCommandStates
    sizingCandidates := request'.sizingCandidates }

theorem rel_perm_symm {α : Type} {xs ys : Option (List α)} (h : Option.Rel List.Perm xs ys) :
    Option.Rel List.Perm ys xs := by
  cases h with
  | none => exact Option.Rel.none
  | some hperm => exact Option.Rel.some hperm.symm

theorem Permuted.symm {request request' : RiskRequest ℚ} (h : Permuted request request') :
    Permuted request' request where
  positions := h.positions.symm
  orders := h.orders.symm
  symbolMetadata := h.symbolMetadata.symm
  markets := h.markets.symm
  pendingCommands := h.pendingCommands.symm
  pendingCommandStates := h.pendingCommandStates.symm
  sizingCandidates := h.sizingCandidates.symm
  legs := rel_perm_symm h.legs
  rest := by rw [h.rest]

theorem Permuted.eased {request request' : RiskRequest ℚ} (h : Permuted request request') :
    Eased request request'.shape where
  risk := by
    have hdecision := congrArg (fun r : RiskRequest ℚ => r.decision.proposedRiskPct) h.rest
    have hintent := congrArg (fun r : RiskRequest ℚ => r.intent.proposedRiskPct) h.rest
    exact .inl ⟨hdecision, hintent⟩
  legs := h.legs
  positions := h.positions.symm.subperm
  orders := h.orders.symm.subperm
  pendingCommands := h.pendingCommands.symm.subperm
  pendingCommandStates := h.pendingCommandStates.symm.subperm
  ownStates := fun _ _ _ hstate _ => h.pendingCommandStates.mem_iff.mp hstate
  paired := by
    intro hpaired
    exact h.pendingCommands.length_eq.symm.trans (hpaired.trans h.pendingCommandStates.length_eq)
  symbolMetadata := h.symbolMetadata
  markets := h.markets
  sizingCandidates := h.sizingCandidates

theorem Permuted.reshape {request request' : RiskRequest ℚ} (h : Permuted request request') :
    request.reshape request'.shape = request' := by
  rw [h.rest]
  rfl

theorem AuditAges.Within.antisymm {ages bound : AuditAges} (h : ages.Within bound)
    (h' : bound.Within ages) : ages = bound := by
  cases ages
  cases bound
  obtain ⟨hsnapshot, hmarket, hmetadata, hcapacity⟩ := h
  obtain ⟨hsnapshot', hmarket', hmetadata', hcapacity'⟩ := h'
  rw [AuditAges.mk.injEq]
  exact ⟨le_antisymm hsnapshot hsnapshot', le_antisymm hmarket hmarket',
    le_antisymm hmetadata hmetadata', le_antisymm hcapacity hcapacity'⟩

section
variable {request request' : RiskRequest ℚ}

theorem Opened.permuted {prepared : List (PreparedLeg ℚ)}
    {active : List (ExecutionCommand ℚ × ExecutionCommandState)} {ages : AuditAges} {validUntil : Int}
    {capped : Capped} (h : Opened request prepared active ages validUntil capped)
    (hpermuted : Permuted request request') : ∃ kept capped',
      Opened request' prepared kept ages validUntil capped' ∧
        capped'.riskBudget = capped.riskBudget ∧ capped'.scale.value = capped.scale.value := by
  have hforth := h.eased hpermuted.eased
  rw [hpermuted.reshape] at hforth
  obtain ⟨kept, ages', later, capped', h', hages, hlater, hbudget, hscale⟩ := hforth
  have hback := h'.eased hpermuted.symm.eased
  rw [hpermuted.symm.reshape] at hback
  obtain ⟨again, ages'', last, capped'', h'', hages', hlater', hbudget', hscale'⟩ := hback
  -- back at the request everything is what it was
  obtain ⟨-, -, rfl, rfl, rfl⟩ := h.unique h''
  obtain rfl := hages.antisymm hages'
  obtain rfl := le_antisymm hlater hlater'
  exact ⟨kept, capped', h', le_antisymm hbudget' hbudget, le_antisymm hscale' hscale⟩

theorem evaluate_permuted_ok {digest : RequestDigest ℚ} {breaker : CircuitBreakerState}
    {result : RiskResult ℚ} (hpermuted : Permuted request request')
    (h : evaluate digest request breaker = .ok result) (happroved : result.approved = true) :
    evaluate digest request' breaker
      = .ok { result with riskRequestHash := digest.hash request' } := by
  obtain ⟨v, rfl⟩ : ∃ v, request' = request.reshape v := ⟨_, hpermuted.reshape.symm⟩
  have heased : Eased request v := hpermuted.eased
  have hnameable' : Nameable (request.reshape v) := (evaluate_isNameable h).eased
  obtain ⟨approval, hinner, rfl, -⟩ := evaluate_approved h happroved
  have hshaped := evaluateInner_shaped hinner
  have hshaped' := evaluateInner_shaped_eased heased hshaped
  cases approval with
  | noOp validUntil =>
    have haction := evaluateInner_noOp hinner
    obtain ⟨hcontrol, _, huntil, heq⟩ := (evaluateInner_hold hshaped haction).mp hinner
    cases heq
    obtain ⟨-, -, hopen⟩ := holdValidUntil_iff.mp huntil
    have hinner' : evaluateInner (request.reshape v) breaker = .ok (.noOp validUntil) :=
      (evaluateInner_hold hshaped' haction).mpr ⟨hcontrol, _, huntil, rfl⟩
    have hresult := @evaluate_valid ℚ _ (request.reshape v) digest breaker hnameable' (by
      rw [hinner']
      exact noOpResult_valid hnameable' hopen)
    rw [hinner'] at hresult
    exact hresult
  | actionable approval =>
    obtain ⟨haction, hallowed, hopening⟩ := evaluateInner_actionable hinner
    obtain ⟨prepared, active, ages, validUntil, capped, hopened, rfl⟩ := evaluateOpening_iff.mp hopening
    obtain ⟨kept, capped', hopened', hbudget, hscale⟩ := hopened.permuted hpermuted
    rw [hopened'.evaluated hnameable' hshaped' haction hallowed, hbudget, hscale]
    rfl

/-- whether `evaluate` approves -/
def Approves (digest : RequestDigest ℚ) (request : RiskRequest ℚ) (breaker : CircuitBreakerState) :
    Prop :=
  ∃ result, evaluate digest request breaker = .ok result ∧ result.approved = true

/-- The order of the lists of a request plays no part in its approval. -/
theorem evaluate_permuted (digest : RequestDigest ℚ) (breaker : CircuitBreakerState)
    (h : Permuted request request') :
    (Approves digest request' breaker ↔ Approves digest request breaker) ∧
      ∀ result, evaluate digest request breaker = .ok result → result.approved = true →
        evaluate digest request' breaker
          = .ok { result with riskRequestHash := digest.hash request' } := by
  refine ⟨⟨?_, ?_⟩, fun result hresult happroved => evaluate_permuted_ok h hresult happroved⟩
  · rintro ⟨result, hresult, happroved⟩
    exact ⟨_, evaluate_permuted_ok h.symm hresult happroved, happroved⟩
  · rintro ⟨result, hresult, happroved⟩
    exact ⟨_, evaluate_permuted_ok h hresult happroved, happroved⟩

end

/-- silver in front of gold in every list -/
def pairReversed : RiskRequest ℚ :=
  { pairRequest with
    intent := { pairRequest.intent with proposedLegs := some [silverPart, goldPart] }
    symbolMetadata := pairRequest.symbolMetadata.reverse
    markets := pairRequest.markets.reverse
    sizingCandidates := pairRequest.sizingCandidates.reverse }

theorem gold_permuted : evaluate goldDigest pairReversed CircuitBreakerState.new = .ok pairResult := by
  have hpermuted : Permuted pairRequest pairReversed :=
    { positions := List.Perm.refl _, orders := List.Perm.refl _
      symbolMetadata := List.Perm.swap _ _ _, markets := List.Perm.swap _ _ _
      pendingCommands := List.Perm.refl _, pendingCommandStates := List.Perm.refl _
      sizingCandidates := List.Perm.swap _ _ _, legs := Option.Rel.some (List.Perm.swap _ _ _)
      rest := rfl }
  exact (evaluate_permuted goldDigest CircuitBreakerState.new hpermuted).2 pairResult
    (by decide +kernel) rfl

end Sinan.Risk
