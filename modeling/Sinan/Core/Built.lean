import Sinan.Core.Executable

/-!
# Building an approval

The loop of the builder over the planned legs.  A leg is built exactly when its order, its take
profit and its expiration are in shape and its numbers can be signed; the plan around the built legs
then passes its own validation.
-/

namespace Sinan.Core

open Lib Breaker Risk Execution Store Protocol

section
variable {snapshot : TrustedRiskSnapshot ℚ} {context : TrustedRiskWorkflowContext ℚ}

/-! ## binding one leg -/

/-- the shape of the order of a leg, beyond its approval -/
structure OrderInShape (x : PlannedLeg snapshot context) : Prop where
  market : x.parameters.orderType = .market → x.parameters.price = none
  priced : x.parameters.orderType ≠ .market → x.parameters.price.isSome
  expiration : ∀ t ∈ x.parameters.expirationTime, 0 ≤ t
  takeProfit : ∀ tp ∈ x.leg.proposedTp, 0 < tp

theorem parameters_accepted (x : PlannedLeg snapshot context) :
    (∀ points ∈ x.parameters.deviationPoints, 0 ≤ points) ∧
      ∀ price ∈ x.parameters.price, 0 < price := by
  have haccepted := x.accepted
  simp only [validateExecutionParameters, bind_ok, exists_unit, reject_ok, Bool.not_eq_true,
    Option.any_eq_false, notPositive_exact, decide_eq_false_iff_not, not_lt] at haccepted
  exact haccepted.2

theorem withinEntryBound_planned {x : PlannedLeg snapshot context} {a : AdjustedRiskLeg ℚ}
    (ha : ApprovedLeg x a) {price : ℚ} (hprice : x.parameters.price = some price) :
    withinEntryBound a price = true := by
  obtain ⟨hdeviation, -⟩ := parameters_accepted x
  have hpoint := notPositive_exact.mp x.pointPositive
  have hpoints : 0 ≤ x.parameters.deviationPoints.getD 0 := by
    cases hpoints : x.parameters.deviationPoints with
    | none => exact le_rfl
    | some points => exact hdeviation points hpoints
  have hroom : (0 : ℚ) ≤ ((x.parameters.deviationPoints.getD 0 : Int) : ℚ) * x.metadata.point :=
    mul_nonneg (by exact_mod_cast hpoints) hpoint.le
  have hentry : a.sizingEntryPrice = worstEntryPrice x.workflow x.parameters x.metadata x.market :=
    ha.entry
  unfold worstEntryPrice at hentry
  rw [hprice] at hentry
  unfold withinEntryBound
  rw [ha.action, hentry]
  cases haction : x.action with
  | buy =>
    have hworkflow : x.workflow.action = .buy := haction
    rw [hworkflow]
    refine decide_eq_true ?_
    show price ≤ price + _
    exact le_add_of_nonneg_right hroom
  | sell =>
    have hworkflow : x.workflow.action = .sell := haction
    rw [hworkflow]
    refine decide_eq_true ?_
    show price - _ ≤ price
    exact sub_le_self _ hroom

theorem validateOrderPrice_planned {x : PlannedLeg snapshot context} {a : AdjustedRiskLeg ℚ}
    (ha : ApprovedLeg x a) :
    validateOrderPrice x.intended a x.resolved = .ok () ↔
      (x.parameters.orderType = .market → x.parameters.price = none) ∧
      (x.parameters.orderType ≠ .market → x.parameters.price.isSome) := by
  have hpositive := (parameters_accepted x).2
  have hpriced : (do
      let price ← need x.parameters.price
        (invalid (F := ℚ) "resolved_legs[].price" "non-MARKET commands require a price")
      reject (notPositive price) (invalid "resolved_legs[].price" "must be positive and finite")
      reject (withinEntryBound a price = false)
        (reRisk ("entry price for " ++ x.intended.legId ++
          " exceeds the approved worst-entry bound"))) = .ok () ↔ x.parameters.price.isSome := by
    simp only [bind_ok, exists_unit, need_ok, reject_ok, Bool.not_eq_true, Bool.not_eq_false,
      Option.isSome_iff_exists, notPositive_exact]
    constructor
    · rintro ⟨price, hprice, -⟩
      exact ⟨price, hprice⟩
    · rintro ⟨price, hprice⟩
      exact ⟨price, hprice, hpositive price hprice, withinEntryBound_planned ha hprice⟩
  unfold validateOrderPrice
  rw [show x.resolved.orderType = x.parameters.orderType from rfl]
  cases htype : x.parameters.orderType with
  | market =>
    show reject x.parameters.price.isSome _ = .ok () ↔ _
    rw [reject_ok, Option.not_isSome_iff_eq_none]
    exact ⟨fun h => ⟨fun _ => h, fun h' => absurd rfl h'⟩, fun h => h.1 rfl⟩
  | limit => exact hpriced.trans ⟨fun h => ⟨fun h' => (by cases h'), fun _ => h⟩,
      fun h => h.2 fun h' => (by cases h')⟩
  | stop => exact hpriced.trans ⟨fun h => ⟨fun h' => (by cases h'), fun _ => h⟩,
      fun h => h.2 fun h' => (by cases h')⟩
  | stopLimit => exact hpriced.trans ⟨fun h => ⟨fun h' => (by cases h'), fun _ => h⟩,
      fun h => h.2 fun h' => (by cases h')⟩

theorem validateLegBinding_planned {x : PlannedLeg snapshot context} {a : AdjustedRiskLeg ℚ}
    (ha : ApprovedLeg x a) :
    validateLegBinding x.intended a x.resolved x.metadata = .ok () ↔ OrderInShape x := by
  have hsymbol : x.metadata.symbol = x.leg.symbol := (find_key x.metadataFound).2
  have hdeviation := (parameters_accepted x).1
  simp only [validateLegBinding, bind_ok, exists_unit, reject_ok, each_ok,
    validateOrderPrice_planned ha, Option.any_eq_false, notPositive_exact, not_or, not_not, ne_eq,
    decide_eq_false_iff_not, not_lt, List.forall_mem_cons, Bool.not_eq_true]
  constructor
  · rintro ⟨-, -, htp, ⟨hmarket, hpriced⟩, hexpiration, -⟩
    exact ⟨hmarket, hpriced, hexpiration, htp⟩
  · intro h
    refine ⟨⟨ha.legId, ha.symbol, ?_, rfl, hsymbol⟩, ⟨ha.lotsPositive, ?_, ha.ratioPositive, ?_⟩,
      h.takeProfit, ⟨h.market, h.priced⟩, h.expiration, hdeviation⟩
    · rw [ha.action]
      rfl
    · rw [ha.stop]
      exact ha.stopPositive
    · exact fun _ hfv => absurd hfv List.not_mem_nil

/-! ## the command of one leg -/

theorem signed_hex {mac : Mac} {c : ExecutionCommand ℚ} {secret : List UInt8}
    {format : CommandSigningFormat ℚ} {hmac : String}
    (h : signExecutionCommand mac c secret format = .ok hmac) :
    hmac.toList.length = 64 ∧ isLowerHex hmac = true := by
  simp only [signExecutionCommand, bind_ok, pure_ok] at h
  obtain ⟨_, -, rfl⟩ := h
  exact ⟨by rw [encodeHex_length, mac.tag_length], encodeHex_lower _⟩

theorem blank_hex {s : String} (hlength : s.toList.length = 64) (hlower : isLowerHex s = true) :
    blank s = false := by
  unfold isLowerHex at hlower
  unfold blank
  cases hs : s.toList with
  | nil =>
    rw [hs] at hlength
    cases hlength
  | cons c cs =>
    rw [hs, List.all_cons, Bool.and_eq_true] at hlower
    have hdigit : isWhiteSpace c = false := by
      have hc := hlower.1
      simp only [isLowerHexDigit, Bool.or_eq_true, Bool.and_eq_true, decide_eq_true_eq] at hc
      simp only [isWhiteSpace, Bool.or_eq_false_iff, Bool.and_eq_false_iff, decide_eq_false_iff_not,
        beq_eq_false_iff_ne]
      omega
    rw [List.all_cons, hdigit, Bool.false_and]

theorem initialCommandState_ok {command : ExecutionCommand ℚ} {createdAt : Int}
    (hidentity : validateCommandIdentity command = .ok ()) (hcreated : 0 ≤ createdAt)
    (hexpires : createdAt < command.expiresAt) :
    ∃ state, initialCommandState command createdAt = .ok state := by
  simp only [initialCommandState, bind_ok, exists_unit, reject_ok, pure_ok]
  refine ⟨_, hidentity, by omega, ?_, rfl⟩
  simp only [validateCommandState, bind_ok, exists_unit, reject_ok, each_ok]
  refine ⟨hidentity, ?_, by omega, by omega, ?_, fun t ht => absurd ht List.not_mem_nil, ?_, ?_, ?_,
    ?_, ?_, ?_⟩
  all_goals simp [commandStatusIsTerminal, requiresDispatch, requiresReconciliation,
    requiresReceipt]

section
variable {evaluatedAt : Int} {hash : String} {assembled : AssembledRiskWorkflow ℚ}
  {result : RiskResult ℚ} {planned : List (PlannedLeg snapshot context)}
  {adjusted : List (AdjustedRiskLeg ℚ)} {bound : List (SizingCandidateProvenance ℚ)}

/-- the command of a planned leg before it is signed -/
def plannedCommand (evaluatedAt : Int) (assembled : AssembledRiskWorkflow ℚ)
    (result : RiskResult ℚ) (expiresAt : Int) (x : PlannedLeg snapshot context)
    (a : AdjustedRiskLeg ℚ) : ExecutionCommand ℚ :=
  unsignedCommand (buildRequest context evaluatedAt assembled result) expiresAt x.intended a
    x.resolved x.metadata

variable {x : PlannedLeg snapshot context} {a : AdjustedRiskLeg ℚ} {expiresAt : Int}

theorem preparedOf_maps
    (h : ApprovedWorkflow snapshot context evaluatedAt hash assembled result
      planned adjusted bound) (hx : x ∈ planned) (ha : a ∈ adjusted) (hleg : ApprovedLeg x a)
    (expiresAt : Int) :
    (preparedOf planned adjusted expiresAt).adjusted.find?
        (fun leg => leg.legId == x.intended.legId) = some a ∧
      (preparedOf planned adjusted expiresAt).resolved.find?
        (fun leg => leg.legId == x.intended.legId) = some x.resolved ∧
      (preparedOf planned adjusted expiresAt).metadata.lookup x.intended.legId =
        some x.metadata := by
  refine ⟨?_, ?_, metadataMap_lookup h.legsDistinct hx⟩
  · have hfind := find_key_self h.adjustedDistinct ha
    rw [hleg.legId] at hfind
    exact hfind
  · have hids : ((planned.map PlannedLeg.resolved).map ResolvedLegExecution.legId).Nodup := by
      rw [resolved_ids]
      exact h.legsDistinct
    exact find_key_self hids (List.mem_map_of_mem hx)

theorem buildLeg_planned
    (h : ApprovedWorkflow snapshot context evaluatedAt hash assembled result
      planned adjusted bound) (hx : x ∈ planned) (ha : a ∈ adjusted) (hleg : ApprovedLeg x a)
    (hexpires : evaluatedAt < expiresAt) (mac : Mac) :
    (∃ built, buildLeg mac (buildRequest context evaluatedAt assembled result)
        (preparedOf planned adjusted expiresAt) x.intended = .ok built) ↔
      OrderInShape x ∧
        Signable x.metadata a.lots a.approvedSl x.leg.proposedTp x.parameters.price := by
  obtain ⟨hadjusted, hresolved, hmetadata⟩ := preparedOf_maps h hx ha hleg expiresAt
  constructor
  · rintro ⟨built, hbuilt⟩
    obtain ⟨a', r, m, format, hmac, ha', hr, hm, hbinding, hformat, hsigned, -⟩ :=
      buildLeg_sources hbuilt
    obtain rfl : a' = a := Option.some.inj (ha'.symm.trans hadjusted)
    obtain rfl : r = x.resolved := Option.some.inj (hr.symm.trans hresolved)
    obtain rfl : m = x.metadata := Option.some.inj (hm.symm.trans hmetadata)
    exact ⟨(validateLegBinding_planned hleg).mp hbinding,
      Signable.of_signed hformat hsigned rfl rfl⟩
  · rintro ⟨hshape, hsignable⟩
    have haction : (plannedCommand evaluatedAt assembled result expiresAt x a).action = .buy ∨
        (plannedCommand evaluatedAt assembled result expiresAt x a).action = .sell := by
      show AdjustedRiskLegAction.toExecution x.action = .buy ∨
        AdjustedRiskLegAction.toExecution x.action = .sell
      cases x.action with
      | buy => exact .inl rfl
      | sell => exact .inr rfl
    have hneeds : needsPrice (plannedCommand evaluatedAt assembled result expiresAt x a).orderType =
        true → x.parameters.price.isSome := by
      intro hneeds
      refine hshape.priced fun hmarket => ?_
      have htype : (plannedCommand evaluatedAt assembled result expiresAt x a).orderType =
          some .market := congrArg some hmarket
      rw [htype] at hneeds
      cases hneeds
    obtain ⟨format, hmac, hformat, hsigned⟩ :=
      hsignable.signs haction rfl rfl rfl rfl rfl hneeds mac context.signingSecret
    obtain ⟨hlength, hlower⟩ := signed_hex hsigned
    obtain ⟨hid, hsymbol⟩ := planned_legId h hx
    have hnow := h.checked.evaluatedAt
    rw [h.evaluatedAt] at hnow
    have hidentity : validateCommandIdentity
        { plannedCommand evaluatedAt assembled result expiresAt x a with hmac := hmac } =
          .ok () := by
      simp only [validateCommandIdentity, identityFields, bind_ok, exists_unit, each_ok, reject_ok,
        List.forall_mem_cons, Bool.not_eq_true]
      refine ⟨⟨?_, h.checked.strategyId, h.checked.accountId, hsymbol, ?_, blank_hex hlength hlower,
        fun _ hfv => absurd hfv List.not_mem_nil⟩, fun hplan => (by cases hplan.2)⟩
      · exact initialCommandId_text _ _
      · exact initialCommandIdempotencyKey_text _ _
    obtain ⟨state, hstate⟩ := initialCommandState_ok hidentity hnow hexpires
    refine ⟨⟨executionLeg x.intended a x.resolved,
      { plannedCommand evaluatedAt assembled result expiresAt x a with hmac := hmac }, state⟩, ?_⟩
    simp only [buildLeg, bind_ok, exists_unit, need_ok, pure_ok, liftSigning_ok, liftState_ok]
    exact ⟨a, hadjusted, x.resolved, hresolved, x.metadata, hmetadata,
      (validateLegBinding_planned hleg).mpr hshape, format, hformat, hmac, hsigned, state, hstate,
      rfl⟩

/-! ## the plan -/

/-- a built leg carries the intended leg with its approved lots and stop, a signed command and the
initial state of that command -/
structure BuiltFrom (evaluatedAt : Int) (assembled : AssembledRiskWorkflow ℚ) (result : RiskResult ℚ)
    (expiresAt : Int) (x : PlannedLeg snapshot context) (a : AdjustedRiskLeg ℚ) (b : BuiltLeg ℚ) :
    Prop where
  approval : ApprovedLeg x a
  leg : b.leg = executionLeg x.intended a x.resolved
  command : { b.command with hmac := "" } =
    plannedCommand evaluatedAt assembled result expiresAt x a
  hmac : b.command.hmac.toList.length = 64 ∧ isLowerHex b.command.hmac = true
  state : initialCommandState b.command evaluatedAt = .ok b.state

theorem buildLeg_builtFrom
    (h : ApprovedWorkflow snapshot context evaluatedAt hash assembled result
      planned adjusted bound) (hx : x ∈ planned) {mac : Mac} {b : BuiltLeg ℚ}
    (hb : buildLeg mac (buildRequest context evaluatedAt assembled result)
      (preparedOf planned adjusted expiresAt) x.intended = .ok b) :
    ∃ a ∈ adjusted, BuiltFrom evaluatedAt assembled result expiresAt x a b := by
  obtain ⟨a, ha, hleg⟩ := h.approval x hx
  obtain ⟨hadjusted, hresolved, hmetadata⟩ := preparedOf_maps h hx ha hleg expiresAt
  obtain ⟨a', r, m, format, hmac, ha', hr, hm, -, -, hsigned, hbuilt, hcommand, hstate⟩ :=
    buildLeg_sources hb
  obtain rfl : a' = a := Option.some.inj (ha'.symm.trans hadjusted)
  obtain rfl : r = x.resolved := Option.some.inj (hr.symm.trans hresolved)
  obtain rfl : m = x.metadata := Option.some.inj (hm.symm.trans hmetadata)
  refine ⟨a', ha, hleg, hbuilt, ?_, ?_, hstate⟩
  · rw [hcommand]
    rfl
  · rw [hcommand]
    exact signed_hex hsigned

theorem builtFrom_graph {built : List (BuiltLeg ℚ)}
    (h : List.Forall₂ (fun x b => ∃ a ∈ adjusted,
      BuiltFrom evaluatedAt assembled result expiresAt x a b) planned built) :
    (built.map fun b => (b.leg.definition.legId, b.leg.definition.dependency)) =
      planned.map fun x => (x.leg.legId, x.parameters.dependency) := by
  induction h with
  | nil => rfl
  | cons hb _ ih =>
    obtain ⟨a, -, hb⟩ := hb
    rw [List.map_cons, List.map_cons, ih, hb.leg]
    rfl

variable {legs : List (ExecutionLeg ℚ)}

theorem summaryOf_pending {expected : ExecutionLegStatus → Bool}
    (hpending : ∀ leg ∈ legs, leg.state.status = .pending) (h : expected .pending = false) :
    summaryOf expected legs = [] := by
  unfold summaryOf
  have hnone : (legs.filter fun leg => expected leg.state.status) = [] := by
    refine List.filter_eq_nil_iff.mpr fun leg hleg => ?_
    rw [hpending leg hleg, h]
    exact Bool.false_ne_true
  rw [hnone]
  rfl

theorem deriveExecutionPlanStatus_pending (hpending : ∀ leg ∈ legs, leg.state.status = .pending) :
    deriveExecutionPlanStatus legs = .pending := by
  cases legs with
  | nil => rfl
  | cons leg legs =>
    have hstatuses : (leg :: legs).map (fun leg => leg.state.status) =
        List.replicate (legs.length + 1) .pending := by
      refine List.eq_replicate_iff.mpr ⟨by rw [List.length_map, List.length_cons], ?_⟩
      intro status hstatus
      obtain ⟨other, hother, rfl⟩ := List.mem_map.mp hstatus
      exact hpending other hother
    unfold deriveExecutionPlanStatus
    rw [hstatuses]
    simp [List.replicate_succ, ExecutionLegStatus.isTerminal, ExecutionLegStatus.isUnsettled]

theorem validateExecutionPositive_ok {field : String} {q : ℚ} (h : 0 < q) :
    validateExecutionPositive field q = .ok () := by
  unfold validateExecutionPositive
  rw [reject_ok, not_not]
  refine ⟨rfl, decide_eq_true ?_⟩
  show ((0 : Int) : ℚ) < q
  rw [Int.cast_zero]
  exact h

theorem executionLeg_valid
    (h : ApprovedWorkflow snapshot context evaluatedAt hash assembled result
      planned adjusted bound) (hx : x ∈ planned) (hleg : ApprovedLeg x a)
    (htp : ∀ tp ∈ x.leg.proposedTp, 0 < tp) :
    (executionLeg x.intended a x.resolved).validate = .ok () := by
  obtain ⟨hid, hsymbol⟩ := planned_legId h hx
  have hstop : 0 < a.approvedSl := by
    rw [hleg.stop]
    exact hleg.stopPositive
  simp only [ExecutionLeg.validate, bind_ok, exists_unit, validateExecutionNonEmpty_ok, reject_ok]
  refine ⟨hid, hsymbol, validateExecutionPositive_ok hleg.ratioPositive,
    validateExecutionPositive_ok hleg.lotsPositive, validateExecutionPositive_ok hstop, ?_,
    fun hnone => (by cases hnone.2)⟩
  show validateExecutionPositiveOpt "legs[].tp" x.leg.proposedTp = .ok ()
  cases htarget : x.leg.proposedTp with
  | none => rfl
  | some tp => exact validateExecutionPositive_ok (htp tp htarget)

theorem planned_ne_nil (h : ApprovedWorkflow snapshot context evaluatedAt hash assembled result
      planned adjusted bound) : planned ≠ [] := by
  obtain ⟨_, _, _, _, _, -, hsizing⟩ :=
    RiskResult.validate_sizing h.valid h.approved h.adjustedLegs
  simp only [validateSizing, validateSizingLegs, bind_ok, exists_unit, reject_ok] at hsizing
  obtain ⟨-, -, -, -, -, -, -, hadjusted, -⟩ := hsizing
  rintro rfl
  exact hadjusted (List.isEmpty_iff_length_eq_zero.mpr h.adjustedLength)

theorem pendingPlan_valid
    (h : ApprovedWorkflow snapshot context evaluatedAt hash assembled result
      planned adjusted bound)
    (hconfigured : WellConfigured context (planned.map PlannedLeg.resolved))
    (hmode : context.executionPolicy.mode = .simultaneous →
      ∀ r ∈ planned.map PlannedLeg.resolved, r.dependency = [])
    (htp : ∀ x ∈ planned, ∀ tp ∈ x.leg.proposedTp, 0 < tp) {built : List (BuiltLeg ℚ)}
    (hbuilt : List.Forall₂ (fun x b => ∃ a ∈ adjusted,
      BuiltFrom evaluatedAt assembled result expiresAt x a b) planned built) :
    (pendingPlan (buildRequest context evaluatedAt assembled result)
      (built.map BuiltLeg.leg)).validate = .ok () := by
  have hplan : blank (initialPlanId assembled.request.intent.intentId) = false := by
    unfold initialPlanId
    rw [String.append_assoc]
    exact blank_append (by decide)
  have hgraph := builtFrom_graph hbuilt
  have hids : ((built.map BuiltLeg.leg).map ExecutionLeg.definition).map
      ExecutionLegDefinition.legId = planned.map fun x => x.leg.legId := by
    have hfirst := congrArg (List.map Prod.fst) hgraph
    rw [List.map_map, List.map_map] at hfirst ⊢
    exact hfirst
  have hedges : (((built.map BuiltLeg.leg).map ExecutionLeg.definition).flatMap fun leg =>
      leg.dependency.map fun d => (d, leg.legId)) =
        resolvedEdges (planned.map PlannedLeg.resolved) := by
    have hflat := congrArg (List.flatMap fun p => p.2.map fun d => (d, p.1)) hgraph
    unfold resolvedEdges
    rw [List.flatMap_map, List.flatMap_map] at hflat ⊢
    rw [List.flatMap_map]
    exact hflat
  have hsource : ∀ leg ∈ (built.map BuiltLeg.leg).map ExecutionLeg.definition,
      ∃ x ∈ planned, ∃ a, ApprovedLeg x a ∧
        leg = (executionLeg x.intended a x.resolved).definition := by
    intro leg hleg
    obtain ⟨_, hmem, rfl⟩ := List.mem_map.mp hleg
    obtain ⟨b, hb, rfl⟩ := List.mem_map.mp hmem
    obtain ⟨x, hx, a, -, hfrom⟩ := forall₂_mem_right hbuilt hb
    exact ⟨x, hx, a, hfrom.approval, by rw [hfrom.leg]⟩
  have hpending : ∀ leg ∈ built.map BuiltLeg.leg, leg.state.status = .pending := by
    intro leg hleg
    obtain ⟨b, hb, rfl⟩ := List.mem_map.mp hleg
    obtain ⟨x, -, a, -, hfrom⟩ := forall₂_mem_right hbuilt hb
    rw [hfrom.leg]
    rfl
  have hdependencies := hconfigured.dependencies
  rw [resolved_ids] at hdependencies
  refine ExecutionPlan.validate_ok.mpr ⟨⟨hplan, h.checked.accountId, h.checked.strategyId, ?_, ?_, ?_,
    ?_, ?_, ?_⟩, ⟨?_, ?_, ?_⟩⟩
  · intro hnil
    have hlength := congrArg List.length hids
    rw [show (pendingPlan _ _).legs = built.map BuiltLeg.leg from rfl] at hnil
    rw [hnil, List.map_nil, List.length_map, List.length_nil] at hlength
    exact planned_ne_nil h (List.length_eq_zero_iff.mp hlength.symm)
  · intro leg hleg
    obtain ⟨x, hx, a, ha, rfl⟩ := hsource leg hleg
    exact executionLeg_valid h hx ha (htp x hx)
  · show (((built.map BuiltLeg.leg).map ExecutionLeg.definition).map
      ExecutionLegDefinition.legId).Nodup
    rw [hids]
    exact h.legsDistinct
  · intro hsimultaneous leg hleg
    obtain ⟨x, hx, a, -, rfl⟩ := hsource leg hleg
    exact hmode hsimultaneous x.resolved (List.mem_map_of_mem hx)
  · intro leg hleg
    obtain ⟨x, hx, a, -, rfl⟩ := hsource leg hleg
    show dependenciesWellFormed (((built.map BuiltLeg.leg).map ExecutionLeg.definition).map
      ExecutionLegDefinition.legId) x.leg.legId x.resolved.dependency
    rw [hids]
    exact hdependencies x.resolved (List.mem_map_of_mem hx)
  · show kahn (((built.map BuiltLeg.leg).map ExecutionLeg.definition).map
      ExecutionLegDefinition.legId) (((built.map BuiltLeg.leg).map ExecutionLeg.definition).flatMap
        fun leg => leg.dependency.map fun d => (d, leg.legId)) =
          .ok ((built.map BuiltLeg.leg).map ExecutionLeg.definition).length
    rw [hids, hedges, kahn_planned h.legsDistinct hconfigured, ← hids, List.length_map]
  · exact (summaryOf_pending hpending rfl).symm
  · exact (summaryOf_pending hpending rfl).symm
  · exact (deriveExecutionPlanStatus_pending hpending).symm

/-! ## the bundle -/

variable {digest : RequestDigest ℚ}

theorem prepared_eq {p : Prepared ℚ}
    (h : ApprovedWorkflow snapshot context evaluatedAt hash assembled result planned adjusted bound)
    (hp : Reaches digest (buildRequest context evaluatedAt assembled result) p) :
    p = preparedOf planned adjusted
      (commandExpiry (buildRequest context evaluatedAt assembled result)) := by
  have hjoined := prepare_ok.mp hp.prepared
  have hlegs : p.legs = planned.map PlannedLeg.intended :=
    Except.ok.inj (hjoined.legs.symm.trans (intentLegs_planned h hp.action))
  have hadjusted : p.adjusted = adjusted :=
    Option.some.inj (hjoined.adjusted.symm.trans h.adjustedLegs)
  have hmetadata : p.metadata = metadataMap planned := by
    have hindexed := hjoined.metadata
    rw [hlegs] at hindexed
    exact Except.ok.inj (hindexed.symm.trans (indexMetadata_planned h))
  have hresolved : p.resolved = planned.map PlannedLeg.resolved :=
    hjoined.resolved_eq.trans h.resolved
  obtain ⟨legs, adjusted', metadata, resolved, expiresAt⟩ := p
  simp only [preparedOf, Prepared.mk.injEq]
  exact ⟨hlegs, hadjusted, hmetadata, hresolved, hjoined.expiresAt_eq⟩

theorem commandExpiry_ahead (h : ApprovedWorkflow snapshot context evaluatedAt hash assembled result
      planned adjusted bound) (httl : 0 < context.executionPolicy.maxCommandTtlMs) :
    evaluatedAt < commandExpiry (buildRequest context evaluatedAt assembled result) := by
  have hwindow := h.checked.validUntil
  have hopen := h.checked.open_
  rw [h.evaluatedAt] at hwindow hopen
  show evaluatedAt < min (min assembled.request.intent.signalExpiresAt result.validUntil)
    (evaluatedAt + context.executionPolicy.maxCommandTtlMs)
  rw [lt_min_iff, lt_min_iff]
  exact ⟨⟨hopen, hwindow.1⟩, by omega⟩

theorem Executable.leg
    (hexecutable : Executable snapshot context evaluatedAt assembled.resolvedLegs
      adjusted)
    (h : ApprovedWorkflow snapshot context evaluatedAt hash assembled result planned adjusted bound)
    (hconfigured : WellConfigured context assembled.resolvedLegs) (hx : x ∈ planned)
    (ha : a ∈ adjusted) (hleg : ApprovedLeg x a) :
    OrderInShape x ∧
      Signable x.metadata a.lots a.approvedSl x.leg.proposedTp x.parameters.price := by
  have hresolved : x.resolved ∈ assembled.resolvedLegs := by
    rw [h.resolved]
    exact List.mem_map_of_mem hx
  have hintended : x.leg ∈ legsOf snapshot.intent.intent := by
    rw [h.legs]
    exact List.mem_map_of_mem hx
  obtain ⟨hmetadata, hsymbol⟩ := find_key x.metadataFound
  exact ⟨⟨hconfigured.market _ hresolved, hexecutable.price _ hresolved,
    hexecutable.expiration _ hresolved, hexecutable.takeProfit _ hintended⟩,
    hexecutable.signable _ hintended _ hmetadata hsymbol _ hresolved rfl _ ha hleg.legId⟩

theorem Executable.of_legs
    (h : ApprovedWorkflow snapshot context evaluatedAt hash assembled result planned adjusted bound)
    (hretries : context.executionPolicy.rollbackPolicy.bind RollbackPolicy.maxRetryAttempts ≠ some 0)
    (hexpiry : (checkedAdd evaluatedAt context.executionPolicy.maxCommandTtlMs).isSome)
    (hmode : context.executionPolicy.mode = .simultaneous →
      ∀ r ∈ assembled.resolvedLegs, r.dependency = [])
    (haddress : ∀ r ∈ assembled.resolvedLegs,
      blankOpt r.terminalId = false ∧ blankOpt r.clientId = false)
    (hlegs : ∀ x ∈ planned, OrderInShape x ∧ ∀ a ∈ adjusted, ApprovedLeg x a →
      Signable x.metadata a.lots a.approvedSl x.leg.proposedTp x.parameters.price) :
    Executable snapshot context evaluatedAt assembled.resolvedLegs adjusted := by
  have horder : ∀ r ∈ assembled.resolvedLegs, ∃ x ∈ planned, x.resolved = r := by
    intro r hr
    rw [h.resolved] at hr
    exact List.mem_map.mp hr
  have hintended : ∀ leg ∈ legsOf snapshot.intent.intent, ∃ x ∈ planned, x.leg = leg := by
    intro leg hleg
    rw [h.legs] at hleg
    exact List.mem_map.mp hleg
  refine ⟨hretries, hexpiry, hmode, haddress, ?_, ?_, ?_, ?_⟩
  · intro r hr
    obtain ⟨x, hx, rfl⟩ := horder r hr
    exact (hlegs x hx).1.priced
  · intro r hr
    obtain ⟨x, hx, rfl⟩ := horder r hr
    exact (hlegs x hx).1.expiration
  · intro leg hleg
    obtain ⟨x, hx, rfl⟩ := hintended leg hleg
    exact (hlegs x hx).1.takeProfit
  · -- leg ids and symbols are distinct, so each of the four is the one of the planned leg
    intro leg hleg m hm hsymbol r hr hrid a ha haid
    obtain ⟨x, hx, rfl⟩ := hintended leg hleg
    obtain ⟨y, hy, rfl⟩ := horder r hr
    obtain rfl : y = x := List.inj_on_of_nodup_map h.legsDistinct hy hx hrid
    obtain ⟨b, hb, hbleg⟩ := h.approval y hx
    obtain rfl : b = a :=
      List.inj_on_of_nodup_map h.adjustedDistinct hb ha (hbleg.legId.trans haid.symm)
    have hdistinct := h.checked.metadataDistinct
    rw [h.metadata] at hdistinct
    have hfound := find_key_self hdistinct hm
    rw [hsymbol] at hfound
    obtain rfl : m = y.metadata := Option.some.inj (hfound.symm.trans y.metadataFound)
    exact (hlegs y hx).2 b hb hbleg

/-- Under a well configured context an approved workflow is built exactly when it is executable. -/
theorem buildExecution_planned {mac : Mac}
    (h : ApprovedWorkflow snapshot context evaluatedAt (digest.hash assembled.request) assembled
      result planned adjusted bound)
    (haction : assembled.request.intent.action = .buy ∨ assembled.request.intent.action = .sell)
    (hconfigured : WellConfigured context assembled.resolvedLegs) :
    (∃ bundle, buildExecution mac digest (buildRequest context evaluatedAt assembled result) =
        .ok (.built bundle)) ↔
      Executable snapshot context evaluatedAt assembled.resolvedLegs adjusted := by
  have hahead := commandExpiry_ahead h hconfigured.commandTtl
  constructor
  · rintro ⟨bundle, hbuilt⟩
    obtain ⟨p, hp, hassemble⟩ := buildExecution_built hbuilt
    have hjoined := prepare_ok.mp hp.prepared
    obtain rfl := prepared_eq h hp
    simp only [assemble, bind_ok, exists_unit, pure_ok, collect_ok] at hassemble
    obtain ⟨built, hloop, -⟩ := hassemble
    refine Executable.of_legs h ((validateCommon_planned h hconfigured).mp hp.common) ?_ ?_ ?_ ?_
    · obtain ⟨ttl, httl, -⟩ := hjoined.expiry
      exact Option.isSome_iff_exists.mpr ⟨ttl, httl⟩
    · have htopology := hjoined.topology
      simp only [validateTopology, bind_ok, exists_unit, reject_ok] at htopology
      intro hsimultaneous r hr
      by_contra hsome
      refine htopology.2.1 ⟨hsimultaneous, List.any_eq_true.mpr ⟨r, hr, ?_⟩⟩
      rw [Bool.not_eq_true', List.isEmpty_eq_false_iff]
      exact hsome
    · have hindexed : indexResolved assembled.resolvedLegs (planned.map PlannedLeg.intended) =
          .ok (planned.map PlannedLeg.resolved) := hjoined.resolved
      rw [h.resolved] at hindexed ⊢
      exact ((indexResolved_planned h.legsDistinct
        fun x hx => (planned_legId h hx).1).mp hindexed).1
    · intro x hx
      obtain ⟨b, -, hb⟩ := forall₂_mem_right hloop.flip (List.mem_map_of_mem hx)
      obtain ⟨a, ha, hleg⟩ := h.approval x hx
      refine ⟨((buildLeg_planned h hx ha hleg hahead mac).mp ⟨b, hb⟩).1, fun a' ha' hleg' => ?_⟩
      exact ((buildLeg_planned h hx ha' hleg' hahead mac).mp ⟨b, hb⟩).2
  · intro hexecutable
    have hcommon := (validateCommon_planned h hconfigured).mpr hexecutable.retries
    have hprepare := prepare_planned h haction hconfigured hexecutable
    have hloop : ∃ built, List.Forall₂ (fun x b => buildLeg mac
        (buildRequest context evaluatedAt assembled result) (preparedOf planned adjusted
          (commandExpiry (buildRequest context evaluatedAt assembled result))) x.intended = .ok b)
        planned built := by
      refine exists_forall₂ fun x hx => ?_
      obtain ⟨a, ha, hleg⟩ := h.approval x hx
      exact (buildLeg_planned h hx ha hleg hahead mac).mpr (hexecutable.leg h hconfigured hx ha hleg)
    obtain ⟨built, hbuilt⟩ := hloop
    have hfrom := ((List.forall₂_and_left _ _).mpr ⟨fun x hx => hx, hbuilt⟩).imp
      fun x b hb => buildLeg_builtFrom h hb.1 hb.2
    have htp : ∀ x ∈ planned, ∀ tp ∈ x.leg.proposedTp, 0 < tp := by
      intro x hx
      refine hexecutable.takeProfit x.leg ?_
      rw [h.legs]
      exact List.mem_map_of_mem hx
    have hmode := hexecutable.mode
    rw [h.resolved] at hconfigured hmode
    have hplan := pendingPlan_valid h hconfigured hmode htp hfrom
    refine ⟨⟨pendingPlan (buildRequest context evaluatedAt assembled result)
      (built.map BuiltLeg.leg), built.map BuiltLeg.command, built.map BuiltLeg.state⟩, ?_⟩
    rw [buildExecution_reaches ⟨hcommon, haction, hprepare⟩]
    simp only [assemble, bind_ok, exists_unit, pure_ok, collect_ok, liftPlan_ok]
    refine ⟨built, ?_, hplan, rfl⟩
    show List.Forall₂ _ (planned.map PlannedLeg.intended) built
    rw [List.forall₂_map_left_iff]
    exact hbuilt

theorem bundle_planned {mac : Mac} {bundle : ExecutionBundle ℚ}
    (h : ApprovedWorkflow snapshot context evaluatedAt hash assembled result planned adjusted bound)
    (hbuilt : buildExecution mac digest (buildRequest context evaluatedAt assembled result) =
      .ok (.built bundle)) :
    bundle.plan.validate = .ok () ∧ ∃ built : List (BuiltLeg ℚ),
      bundle = ⟨pendingPlan (buildRequest context evaluatedAt assembled result)
        (built.map BuiltLeg.leg), built.map BuiltLeg.command, built.map BuiltLeg.state⟩ ∧
      List.Forall₂ (fun x b => ∃ a ∈ adjusted, BuiltFrom evaluatedAt assembled result
        (commandExpiry (buildRequest context evaluatedAt assembled result)) x a b) planned built := by
  obtain ⟨p, hp, hassemble⟩ := buildExecution_built hbuilt
  obtain rfl := prepared_eq h hp
  simp only [assemble, bind_ok, exists_unit, pure_ok, collect_ok, liftPlan_ok] at hassemble
  obtain ⟨built, hloop, hplan, hbundle⟩ := hassemble
  cases hbundle
  refine ⟨hplan, built, rfl, ?_⟩
  have hlegs : List.Forall₂ _ (planned.map PlannedLeg.intended) built := hloop
  rw [List.forall₂_map_left_iff] at hlegs
  exact ((List.forall₂_and_left _ _).mpr ⟨fun x hx => hx, hlegs⟩).imp
    fun x b hb => buildLeg_builtFrom h hb.1 hb.2

end

end

end Sinan.Core
