import Sinan.Core.Workflow

/-!
# The legs of a workflow

The evaluator, the builder and the assembly each read the legs of an intent in their own way.  Here
they are one list: a planned leg is an intended leg with everything its assembly has found, and the
candidates, the resolved legs and the legs each stage expects are images of that list.
-/

set_option linter.unusedSectionVars false

namespace Sinan.Core

open Lib Breaker Risk Execution Store Protocol

section
variable {F : Type} [F64 F]

/-- the legs of an intent, the only leg of a single-leg intent included -/
def legsOf (intent : TradeIntent F) : List (TradeIntentLeg F) :=
  match intent.proposedLegs with
  | some legs => legs
  | none =>
    let action : TradeIntentLegAction := match intent.action with
      | .buy => .buy
      | .sell => .sell
      | .close | .hold => .close
    [{ legId := singleLegId intent.intentId, symbol := intent.symbol, action
       ratio := F64.ofInt 1, proposedSl := intent.proposedSl, proposedTp := intent.proposedTp }]

theorem workflowLegs_eq (intent : TradeIntent F) :
    workflowLegs intent = (legsOf intent).filterMap workflowLeg := by
  unfold workflowLegs legsOf
  cases intent.proposedLegs with
  | some legs => rfl
  | none =>
    cases intent.action with
    | buy => rfl
    | sell => rfl
    | close => rfl
    | hold => rfl

/-! ## planned legs -/

/-- an opening leg with what its assembly has found -/
structure PlannedLeg (snapshot : TrustedRiskSnapshot F) (context : TrustedRiskWorkflowContext F) where
  leg : TradeIntentLeg F
  action : AdjustedRiskLegAction
  stop : F
  metadata : SymbolMetadataSnapshot F
  market : RiskMarketSnapshot F
  parameters : TrustedLegExecutionParameters F
  opens : openingAction leg.action = some action
  stopGiven : leg.proposedSl = some stop
  metadataFound : snapshot.symbolMetadata.find? (fun m => m.symbol == leg.symbol) = some metadata
  marketFound : snapshot.markets.find? (fun m => m.snapshot.symbol == leg.symbol) = some market
  pointPositive : notPositive metadata.point = false
  accepted : validateExecutionParameters parameters = .ok ()

namespace PlannedLeg

variable {snapshot : TrustedRiskSnapshot F} {context : TrustedRiskWorkflowContext F}

def workflow (x : PlannedLeg snapshot context) : RiskWorkflowLeg F where
  legId := x.leg.legId
  symbol := x.leg.symbol
  action := x.action
  ratio := x.leg.ratio
  proposedStopLoss := x.leg.proposedSl

def candidate (x : PlannedLeg snapshot context) : PositionSizingCandidate F :=
  sizingCandidate x.workflow x.stop x.parameters x.metadata x.market

def resolved (x : PlannedLeg snapshot context) : ResolvedLegExecution F :=
  resolvedLeg snapshot.intent.intent.intentId x.workflow x.parameters

/-- the leg the evaluator expects -/
def expected (x : PlannedLeg snapshot context) : ExpectedLeg F where
  legId := x.leg.legId
  symbol := x.leg.symbol
  action := x.action
  ratio := x.leg.ratio
  stop := x.leg.proposedSl

/-- the leg the builder intends -/
def intended (x : PlannedLeg snapshot context) : IntentLeg F where
  legId := x.leg.legId
  symbol := x.leg.symbol
  action := AdjustedRiskLegAction.toExecution x.action
  ratio := x.leg.ratio
  tp := x.leg.proposedTp

end PlannedLeg

section
variable {snapshot : TrustedRiskSnapshot F} {context : TrustedRiskWorkflowContext F}

/-! ## what the evaluator expects -/

variable {action : AdjustedRiskLegAction} {legs : List (TradeIntentLeg F)}
  {expected : List (ExpectedLeg F)}

theorem legAction_ok {leg : TradeIntentLeg F} :
    legAction leg = .ok action ↔ openingAction leg.action = some action := by
  unfold legAction openingAction
  cases leg.action with
  | buy => exact ⟨fun h => by cases h; rfl, fun h => by cases h; rfl⟩
  | sell => exact ⟨fun h => by cases h; rfl, fun h => by cases h; rfl⟩
  | close => exact ⟨fun h => (by cases h), fun h => (by cases h)⟩

theorem expectLegs_ok {seen : List LegId} (h : expectLegs seen legs = .ok expected) :
    (legs.map TradeIntentLeg.legId).Nodup ∧ (∀ leg ∈ legs, leg.legId ∉ seen) ∧
      List.Forall₂ (fun (leg : TradeIntentLeg F) (e : ExpectedLeg F) =>
        openingAction leg.action = some e.action ∧
        e = ⟨leg.legId, leg.symbol, e.action, leg.ratio, leg.proposedSl⟩) legs expected := by
  induction legs generalizing seen expected with
  | nil =>
    cases h
    exact ⟨List.nodup_nil, fun _ hleg => absurd hleg List.not_mem_nil, List.Forall₂.nil⟩
  | cons leg legs ih =>
    simp only [expectLegs, bind_ok, exists_unit, reject_ok, pure_ok, legAction_ok] at h
    obtain ⟨hfresh, action, hopens, rest, hrest, rfl⟩ := h
    obtain ⟨hnodup, hunseen, hforall⟩ := ih hrest
    refine ⟨?_, ?_, List.Forall₂.cons ⟨hopens, rfl⟩ hforall⟩
    · rw [List.map_cons, List.nodup_cons, List.mem_map]
      refine ⟨?_, hnodup⟩
      rintro ⟨other, hother, hsame⟩
      apply hunseen other hother
      rw [hsame]
      exact List.mem_append.mpr (.inr (List.mem_singleton.mpr rfl))
    · intro other hother
      rcases List.mem_cons.mp hother with rfl | hother
      · exact hfresh
      · exact fun hseen => hunseen other hother (List.mem_append.mpr (.inl hseen))

theorem expectedLegs_ok {request : RiskRequest F} (h : expectedLegs request = .ok expected) :
    ((legsOf request.intent).map TradeIntentLeg.legId).Nodup ∧
      List.Forall₂ (fun (leg : TradeIntentLeg F) (e : ExpectedLeg F) =>
        openingAction leg.action = some e.action ∧
        e = ⟨leg.legId, leg.symbol, e.action, leg.ratio, leg.proposedSl⟩)
        (legsOf request.intent) expected := by
  unfold expectedLegs at h
  unfold legsOf
  cases hlegs : request.intent.proposedLegs with
  | some legs =>
    rw [hlegs] at h
    obtain ⟨hnodup, -, hforall⟩ := expectLegs_ok h
    exact ⟨hnodup, hforall⟩
  | none =>
    rw [hlegs] at h
    refine ⟨List.nodup_singleton _, ?_⟩
    cases haction : request.intent.action with
    | buy =>
      rw [haction] at h
      cases h
      exact List.Forall₂.cons ⟨rfl, rfl⟩ List.Forall₂.nil
    | sell =>
      rw [haction] at h
      cases h
      exact List.Forall₂.cons ⟨rfl, rfl⟩ List.Forall₂.nil
    | close =>
      rw [haction] at h
      cases h
    | hold =>
      rw [haction] at h
      cases h

/-! ## what the assembly keeps -/

variable {pair : PositionSizingCandidate F × ResolvedLegExecution F}

theorem assembleLeg_some {leg : RiskWorkflowLeg F}
    (h : assembleLeg snapshot context leg = .ok (some pair)) :
    ∃ stop metadata market parameters, leg.proposedStopLoss = some stop ∧
      snapshot.symbolMetadata.find? (fun m => m.symbol == leg.symbol) = some metadata ∧
      snapshot.markets.find? (fun m => m.snapshot.symbol == leg.symbol) = some market ∧
      notPositive metadata.point = false ∧ validateExecutionParameters parameters = .ok () ∧
      pair = (sizingCandidate leg stop parameters metadata market,
        resolvedLeg snapshot.intent.intent.intentId leg parameters) := by
  unfold assembleLeg at h
  cases hstop : leg.proposedStopLoss with
  | none =>
    rw [hstop] at h
    cases h
  | some stop =>
    simp only [hstop, bind_ok, need_ok] at h
    obtain ⟨metadata, hmetadata, market, hmarket, h⟩ := h
    by_cases hpoint : notPositive metadata.point = true
    · rw [if_pos hpoint] at h
      cases (pure_ok.mp h)
    · rw [if_neg hpoint] at h
      simp only [bind_ok, exists_unit, pure_ok, Option.some.injEq] at h
      obtain ⟨parameters, -, haccepted, rfl⟩ := h
      exact ⟨stop, metadata, market, parameters, rfl, hmetadata, hmarket,
        eq_false_of_ne_true hpoint, haccepted, rfl⟩

theorem planned_of_assembled {leg : TradeIntentLeg F}
    (hopens : openingAction leg.action = some action)
    (h : assembleLeg snapshot context
      ⟨leg.legId, leg.symbol, action, leg.ratio, leg.proposedSl⟩ = .ok (some pair)) :
    ∃ x : PlannedLeg snapshot context, x.leg = leg ∧ x.action = action ∧
      pair = (x.candidate, x.resolved) := by
  obtain ⟨stop, metadata, market, parameters, hstop, hmetadata, hmarket, hpoint, haccepted, rfl⟩ :=
    assembleLeg_some h
  exact ⟨⟨leg, action, stop, metadata, market, parameters, hopens, hstop, hmetadata, hmarket, hpoint,
    haccepted⟩, rfl, rfl, rfl⟩

theorem workflowLegs_opening
    (h : List.Forall₂ (fun (leg : TradeIntentLeg F) (e : ExpectedLeg F) =>
      openingAction leg.action = some e.action ∧
      e = ⟨leg.legId, leg.symbol, e.action, leg.ratio, leg.proposedSl⟩) legs expected) :
    legs.filterMap workflowLeg = expected.map fun e => ⟨e.legId, e.symbol, e.action, e.ratio, e.stop⟩ := by
  induction h with
  | nil => rfl
  | cons hleg _ ih =>
    obtain ⟨hopens, he⟩ := hleg
    rw [List.map_cons, ← ih, he]
    refine List.filterMap_cons_some ?_
    unfold workflowLeg
    rw [hopens]
    rfl

theorem planned_of_collected
    {pairs : List (Option (PositionSizingCandidate F × ResolvedLegExecution F))}
    (hexpected : List.Forall₂ (fun (leg : TradeIntentLeg F) (e : ExpectedLeg F) =>
      openingAction leg.action = some e.action ∧
      e = ⟨leg.legId, leg.symbol, e.action, leg.ratio, leg.proposedSl⟩) legs expected)
    (hpairs : List.Forall₂ (fun w pair => assembleLeg snapshot context w = .ok pair)
      (expected.map fun e => ⟨e.legId, e.symbol, e.action, e.ratio, e.stop⟩) pairs)
    (hlength : (pairs.filterMap id).length = expected.length) :
    ∃ planned : List (PlannedLeg snapshot context), legs = planned.map PlannedLeg.leg ∧
      expected = planned.map PlannedLeg.expected ∧
      pairs.filterMap id = planned.map fun x => (x.candidate, x.resolved) := by
  induction hexpected generalizing pairs with
  | nil =>
    cases hpairs
    exact ⟨[], rfl, rfl, rfl⟩
  | @cons leg e legs expected hleg hrest ih =>
    cases hpairs with
    | @cons _ pair _ pairs hpair hpairs =>
      obtain ⟨hopens, he⟩ := hleg
      have hall := List.length_filterMap_le id pairs
      have hsame := hpairs.length_eq
      rw [List.length_map] at hsame
      cases pair with
      | none =>
        rw [List.filterMap_cons_none (f := id) rfl, List.length_cons] at hlength
        omega
      | some pair =>
        rw [List.filterMap_cons_some (f := id) rfl, List.length_cons, List.length_cons] at hlength
        obtain ⟨planned, hlegs, hexpected, hassembled⟩ := ih hpairs (by omega)
        rw [he] at hpair
        obtain ⟨x, hx, haction, rfl⟩ := planned_of_assembled hopens hpair
        refine ⟨x :: planned, ?_, ?_, ?_⟩
        · rw [List.map_cons, hx, ← hlegs]
        · rw [List.map_cons, ← hexpected, he, ← hx, ← haction]
          rfl
        · rw [List.filterMap_cons_some (f := id) rfl, hassembled, List.map_cons]

theorem assembled_planned {decode : String → Option CircuitBreakerSnapshotV1} {evaluatedAt : Int}
    {assembled : AssembledRiskWorkflow F}
    (h : assembleRiskRequest decode snapshot evaluatedAt context = .ok assembled)
    (hexpected : expectedLegs assembled.request = .ok expected)
    (hlength : expected.length = assembled.request.sizingCandidates.length) :
    ∃ planned : List (PlannedLeg snapshot context),
      legsOf snapshot.intent.intent = planned.map PlannedLeg.leg ∧
      expected = planned.map PlannedLeg.expected ∧
      assembled.request.sizingCandidates = planned.map PlannedLeg.candidate ∧
      assembled.resolvedLegs = planned.map PlannedLeg.resolved := by
  simp only [assembleRiskRequest, bind_ok, exists_unit, need_ok, pure_ok, collect_ok] at h
  obtain ⟨payload, -, -, pairs, hpairs, reconciledAt, -, rfl⟩ := h
  obtain ⟨-, hforall⟩ := expectedLegs_ok hexpected
  have hworkflow := workflowLegs_opening hforall
  rw [workflowLegs_eq] at hpairs
  have hpairs' : List.Forall₂ (fun w pair => assembleLeg snapshot context w = .ok pair)
      (expected.map fun e => ⟨e.legId, e.symbol, e.action, e.ratio, e.stop⟩) pairs := by
    rw [← hworkflow]
    exact hpairs
  have hcount : (pairs.filterMap id).length = expected.length := by
    rw [hlength]
    exact (List.length_map _).symm
  obtain ⟨planned, hlegs, hexpected', hassembled⟩ := planned_of_collected hforall hpairs' hcount
  refine ⟨planned, hlegs, hexpected', ?_, ?_⟩
  · show (pairs.filterMap id).map Prod.fst = _
    rw [hassembled, List.map_map]
    rfl
  · show (pairs.filterMap id).map Prod.snd = _
    rw [hassembled, List.map_map]
    rfl

/-! ## what the builder intends -/

theorem proposedLeg_planned (x : PlannedLeg snapshot context) :
    proposedLeg x.leg = .ok x.intended := by
  have hopens := x.opens
  unfold proposedLeg PlannedLeg.intended
  cases haction : x.leg.action with
  | buy =>
    rw [haction] at hopens
    have hbuy : x.action = .buy := (Option.some.inj hopens).symm
    rw [hbuy]
    rfl
  | sell =>
    rw [haction] at hopens
    have hsell : x.action = .sell := (Option.some.inj hopens).symm
    rw [hsell]
    rfl
  | close =>
    rw [haction] at hopens
    cases hopens

end

end

end Sinan.Core
