import Sinan.Execution.Joins

/-!
# When the builder returns

`build_execution` returns a result or an error on every request whose leg ids are covered, and on no
other request that reaches its loop are the three maps complete.  Apart from the map accesses of the
loop nothing in it can stop: the topology check finds every key it looks up.
-/

set_option linter.unusedSectionVars false

namespace Sinan.Execution

open Lib Protocol Risk

section
variable {F : Type} [F64 F]

/-- the computation ends with a value or an `Err` -/
def Returns {α : Type} (x : Build F α) : Prop := Refuses (fun h => Halt.crashes h = false) x

/-! ## the checks return -/

theorem nonEmpty_returns (field value : String) : Returns (nonEmpty (F := F) field value) :=
  Refuses.reject rfl

theorem optionalNonEmpty_returns (field : String) (value : Option String) :
    Returns (optionalNonEmpty (F := F) field value) :=
  Refuses.reject rfl

theorem liftResult_returns (r : ResultCheck Unit) : Returns (liftResult (F := F) r) := by
  cases r with
  | error e => exact Refuses.error rfl
  | ok u => exact Refuses.ok u

theorem liftPlan_returns (r : PlanCheck) : Returns (liftPlan (F := F) r) := by
  cases r with
  | error e => exact Refuses.error rfl
  | ok u => exact Refuses.ok u

theorem liftSigning_returns {α : Type} (r : SigningCheck F α) : Returns (liftSigning r) := by
  cases r with
  | error e => exact Refuses.error rfl
  | ok a => exact Refuses.ok a

theorem liftState_returns {α : Type} (r : CommandCheck α) : Returns (liftState (F := F) r) := by
  cases r with
  | error e => exact Refuses.error rfl
  | ok a => exact Refuses.ok a

theorem validateCommon_returns (digest : RequestDigest F) (request : ExecutionBuildRequest F) :
    Returns (validateCommon digest request) := by
  refine Refuses.bind (nonEmpty_returns _ _) fun _ _ => ?_
  refine Refuses.check rfl ?_
  refine Refuses.check rfl ?_
  refine Refuses.check rfl ?_
  refine Refuses.check rfl ?_
  refine Refuses.bind (liftResult_returns _) fun _ _ => ?_
  refine Refuses.check rfl ?_
  refine Refuses.check rfl ?_
  exact Refuses.check rfl (Refuses.reject rfl)

theorem proposedLeg_returns (leg : TradeIntentLeg F) : Returns (proposedLeg leg) := by
  unfold proposedLeg
  split
  · exact Refuses.ok _
  · exact Refuses.ok _
  · exact Refuses.error rfl

theorem intentLegs_returns (request : RiskRequest F) : Returns (intentLegs request) := by
  unfold intentLegs
  split
  · exact Refuses.collect fun leg _ => proposedLeg_returns leg
  · refine Refuses.bind ?_ fun action _ => ?_
    · unfold singleAction
      split
      · exact Refuses.ok _
      · exact Refuses.ok _
      · exact Refuses.error rfl
    · exact Refuses.bind (Refuses.need fun _ => rfl) fun _ _ => Refuses.ok _

theorem indexAdjustedLegs_returns (result : RiskResult F) (legs : List (IntentLeg F)) :
    Returns (indexAdjustedLegs result legs) := by
  refine Refuses.bind (Refuses.need fun _ => rfl) fun adjusted _ => ?_
  refine Refuses.check rfl ?_
  refine Refuses.bind ?_ fun _ _ => Refuses.ok _
  exact Refuses.eachApart (fun _ => Refuses.ok ()) (fun _ => rfl) fun _ => Refuses.ok ()

theorem validateResultCandidates_returns (request : RiskRequest F) (result : RiskResult F) :
    Returns (validateResultCandidates request result) := by
  refine Refuses.bind (Refuses.need fun _ => rfl) fun approved _ => ?_
  refine Refuses.bind (Refuses.reject rfl) fun _ _ => Refuses.each fun c _ => ?_
  exact Refuses.bind (Refuses.need fun _ => rfl) fun bound _ => Refuses.reject rfl

theorem indexMetadataLegs_returns (accountId : AccountId)
    (metadata : List (SymbolMetadataSnapshot F)) (legs : List (IntentLeg F)) :
    Returns (indexMetadataLegs accountId metadata legs) := by
  induction legs with
  | nil => exact Refuses.ok []
  | cons leg legs ih =>
    refine Refuses.bind (Refuses.need fun _ => rfl) fun found _ => ?_
    refine Refuses.check rfl ?_
    exact Refuses.bind ih fun others _ => Refuses.ok _

theorem indexMetadata_returns (request : RiskRequest F) (legs : List (IntentLeg F)) :
    Returns (indexMetadata request legs) := by
  refine Refuses.bind ?_ fun _ _ => indexMetadataLegs_returns _ _ _
  exact Refuses.eachApart (fun _ => Refuses.ok ()) (fun _ => rfl) fun _ => Refuses.ok ()

theorem indexResolved_returns (resolved : List (ResolvedLegExecution F))
    (legs : List (IntentLeg F)) : Returns (indexResolved resolved legs) := by
  refine Refuses.check rfl ?_
  refine Refuses.bind ?_ fun _ _ => Refuses.ok _
  refine Refuses.eachApart (fun leg => ?_) (fun _ => rfl) fun _ => Refuses.ok ()
  refine Refuses.bind (nonEmpty_returns _ _) fun _ _ => ?_
  refine Refuses.bind (nonEmpty_returns _ _) fun _ _ => ?_
  refine Refuses.bind (nonEmpty_returns _ _) fun _ _ => ?_
  exact Refuses.bind (optionalNonEmpty_returns _ _) fun _ _ => optionalNonEmpty_returns _ _

theorem prepare_returns (request : ExecutionBuildRequest F) : Returns (prepare request) := by
  refine Refuses.bind (intentLegs_returns _) fun legs _ => ?_
  refine Refuses.bind (validateTopology_returns _ _ _) fun _ _ => ?_
  refine Refuses.bind (indexAdjustedLegs_returns _ _) fun adjusted _ => ?_
  refine Refuses.bind (validateResultCandidates_returns _ _) fun _ _ => ?_
  refine Refuses.bind (indexMetadata_returns _ _) fun metadata _ => ?_
  refine Refuses.bind (indexResolved_returns _ _) fun resolved _ => ?_
  refine Refuses.bind (Refuses.need fun _ => rfl) fun ttl _ => ?_
  exact Refuses.check rfl (Refuses.ok _)

theorem validateLegBinding_returns (intent : IntentLeg F) (approved : AdjustedRiskLeg F)
    (resolved : ResolvedLegExecution F) (metadata : SymbolMetadataSnapshot F) :
    Returns (validateLegBinding intent approved resolved metadata) := by
  refine Refuses.check rfl ?_
  refine Refuses.bind (Refuses.each fun _ _ => Refuses.reject rfl) fun _ _ => ?_
  refine Refuses.check rfl ?_
  refine Refuses.bind ?_ fun _ _ => Refuses.reject rfl
  unfold validateOrderPrice
  split
  · exact Refuses.reject rfl
  · refine Refuses.bind (Refuses.need fun _ => rfl) fun price _ => ?_
    exact Refuses.check rfl (Refuses.reject rfl)

/-! ## the loop -/

/-- the three maps contain the leg -/
structure Prepared.Has (p : Prepared F) (leg : IntentLeg F) : Prop where
  adjusted : leg.legId ∈ p.adjusted.map AdjustedRiskLeg.legId
  resolved : leg.legId ∈ p.resolved.map ResolvedLegExecution.legId
  metadata : ∃ m, p.metadata.lookup leg.legId = some m

theorem buildLeg_returns (mac : Mac) (request : ExecutionBuildRequest F) {p : Prepared F}
    {leg : IntentLeg F} (h : p.Has leg) : Returns (buildLeg mac request p leg) := by
  obtain ⟨approved, happroved⟩ := exists_find_key h.adjusted
  obtain ⟨resolved, hresolved⟩ := exists_find_key h.resolved
  obtain ⟨metadata, hmetadata⟩ := h.metadata
  unfold buildLeg
  rw [happroved, hresolved, hmetadata]
  refine Refuses.bind (Refuses.ok approved) fun approved _ => ?_
  refine Refuses.bind (Refuses.ok resolved) fun resolved _ => ?_
  refine Refuses.bind (Refuses.ok metadata) fun metadata _ => ?_
  refine Refuses.bind (validateLegBinding_returns _ _ _ _) fun _ _ => ?_
  refine Refuses.bind (liftSigning_returns _) fun format _ => ?_
  refine Refuses.bind (liftSigning_returns _) fun hmac _ => ?_
  exact Refuses.bind (liftState_returns _) fun state _ => Refuses.ok _

theorem assemble_returns (mac : Mac) (request : ExecutionBuildRequest F) {p : Prepared F}
    (h : ∀ leg ∈ p.legs, p.Has leg) : Returns (assemble mac request p) := by
  refine Refuses.bind (Refuses.collect fun leg hleg => ?_) fun built _ => ?_
  · exact buildLeg_returns mac request (h leg hleg)
  · exact Refuses.bind (liftPlan_returns _) fun _ _ => Refuses.ok _

theorem buildExecution_returns {mac : Mac} {digest : RequestDigest F}
    {request : ExecutionBuildRequest F}
    (h : ∀ p, Reaches digest request p → Returns (assemble mac request p)) :
    Returns (buildExecution mac digest request) := by
  refine Refuses.bind (validateCommon_returns digest request) fun _ hcommon => ?_
  -- HOLD and CLOSE end before the loop
  cases haction : request.riskRequest.intent.action with
  | hold => exact Refuses.check rfl (Refuses.ok _)
  | close => exact Refuses.error rfl
  | buy =>
    exact Refuses.bind (prepare_returns request) fun p hp => h p ⟨hcommon, .inl haction, hp⟩
  | sell =>
    exact Refuses.bind (prepare_returns request) fun p hp => h p ⟨hcommon, .inr haction, hp⟩

/-! ## totality -/

/-- `build_execution` returns, its maps are complete when its loop is reached, and neither the lookup
of `validate_topology` nor those of the plan's own validation fail -/
structure Total (mac : Mac) (digest : RequestDigest F) (request : ExecutionBuildRequest F) :
    Prop where
  returns : ∀ h, buildExecution mac digest request = .error h → h.crashes = false
  maps : ∀ p, Reaches digest request p → ∀ leg ∈ p.legs, p.Has leg
  topology : ∀ legs stop,
    validateTopology request.policy.mode legs request.resolvedLegs ≠ .error (.topology stop)
  plan : ∀ legs : List (ExecutionLeg F), (legIds legs).Nodup → ∀ stop,
    kahn (legIds legs) (dependencyEdges legs) ≠ .error stop

/-- the checks before the loop accept the request -/
def Admitted (digest : RequestDigest F) (request : ExecutionBuildRequest F) : Prop :=
  ∃ p, Reaches digest request p

/-- The builder is total on a request exactly when it refuses it before its loop or the leg ids are
covered by the approval and by the resolved legs. -/
theorem buildExecution_total_iff (mac : Mac) (digest : RequestDigest F)
    (request : ExecutionBuildRequest F) :
    Total mac digest request ↔ (Admitted digest request → Covered request) := by
  constructor
  · rintro htotal ⟨p, hp⟩
    rw [covered_iff hp.common (prepare_ok.mp hp.prepared)]
    intro leg hleg
    have hhas := htotal.maps p hp leg hleg
    exact ⟨hhas.adjusted, hhas.resolved⟩
  · intro hcovered
    have hmaps : ∀ p, Reaches digest request p → ∀ leg ∈ p.legs, p.Has leg := by
      intro p hp leg hleg
      have hjoined := prepare_ok.mp hp.prepared
      obtain ⟨hadjusted, hresolved⟩ :=
        (covered_iff hp.common hjoined).mp (hcovered ⟨p, hp⟩) leg hleg
      exact ⟨hadjusted, hresolved, hjoined.metadata_complete hleg⟩
    refine ⟨?_, hmaps, ?_, ?_⟩
    · exact buildExecution_returns fun p hp => assemble_returns mac request (hmaps p hp)
    · intro legs stop hstop
      exact Bool.noConfusion (validateTopology_returns _ _ _ _ hstop)
    · intro legs hdistinct stop hstop
      obtain ⟨n, hcount⟩ := dependencies_counted hdistinct
      rw [hcount] at hstop
      exact (nomatch hstop)

end

/-! ## a resolved leg of another id

The request of `goldRequest`, with one resolved leg as its one intended leg asks for, but under
another leg id: every check before the loop passes. -/

def goldLeg : ResolvedLegExecution ℚ where
  legId := "leg:intent-1:0"
  dependency := []
  commandId := "command-1"
  idempotencyKey := "command-key-1"
  terminalId := some "terminal-1"
  clientId := none
  orderType := .market
  price := none
  deviationPoints := some 20
  magic := 7
  comment := none
  fillingPolicy := some .fok
  timePolicy := none
  expirationTime := none

def goldBuild : ExecutionBuildRequest ℚ where
  planId := "plan-1"
  nowMs := 10000
  riskRequest := goldRequest
  riskResult := goldResult
  policy :=
    { mode := .simultaneous, failurePolicy := .cancelAll, timeoutMs := 5000
      maxCommandTtlMs := 20000, rollbackPolicy := none }
  resolvedLegs := [goldLeg]
  signingSecret := [115, 101, 99, 114, 101, 116]

/-- the MAC of the one command of `goldBuild` under its secret -/
def goldMac : Mac where
  tag := fun _ _ =>
    [71, 101, 70, 192, 232, 106, 172, 237, 118, 201, 186, 190, 34, 138, 17, 120,
     134, 0, 249, 219, 127, 96, 160, 200, 160, 241, 238, 135, 208, 217, 51, 116]
  tag_length := fun _ _ => rfl

def strayBuild : ExecutionBuildRequest ℚ :=
  { goldBuild with resolvedLegs := [{ goldLeg with legId := "leg:intent-2:0" }] }

/-- the loop indexes the resolved legs with an id that is not there -/
theorem stray_leg_crashes :
    strayBuild.riskResult.validate = .ok () ∧
      buildExecution goldMac goldDigest strayBuild = .error (.absentResolved "leg:intent-1:0") ∧
      ¬ Total goldMac goldDigest strayBuild := by
  have hcrash : buildExecution goldMac goldDigest strayBuild
      = .error (.absentResolved "leg:intent-1:0") := by decide +kernel
  refine ⟨by decide +kernel, hcrash, fun htotal => ?_⟩
  exact Bool.noConfusion (htotal.returns _ hcrash)

end Sinan.Execution
