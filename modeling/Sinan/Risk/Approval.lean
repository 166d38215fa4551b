import Sinan.Risk.Evaluator

/-!
# What an approval has checked

The facts about a request that an approved BUY or SELL leaves behind for the stages after the
evaluator, and the legs of the approval against the prepared ones.
-/

set_option linter.unusedSectionVars false

namespace Sinan.Risk

open Lib
open Breaker

section
variable {F : Type} [F64 F]

/-! ## the times of an approval -/

variable {request : RiskRequest F}

theorem earliest_le {start result : Int} {observations : List (Int × Int)}
    (h : earliest start observations = .ok result) : result ≤ start := by
  induction observations generalizing start with
  | nil =>
    cases h
    exact le_rfl
  | cons observation rest ih =>
    obtain ⟨observedAt, maxAge⟩ := observation
    simp only [earliest, bind_ok] at h
    obtain ⟨boundary, -, hrest⟩ := h
    exact (ih hrest).trans (min_le_left _ _)

theorem symbolBoundary_le {start result : Int} {symbol : SymbolCode}
    (h : symbolBoundary request start symbol = .ok result) : result ≤ start := by
  simp only [symbolBoundary, bind_ok, pure_ok] at h
  obtain ⟨_, -, _, -, _, -, _, -, rfl⟩ := h
  exact (min_le_left _ _).trans (min_le_left _ _)

theorem symbolBoundaries_le {start result : Int} {symbols : List SymbolCode}
    (h : symbols.foldlM (symbolBoundary request) start = .ok result) : result ≤ start := by
  induction symbols generalizing start with
  | nil =>
    cases h
    exact le_rfl
  | cons symbol rest ih =>
    rw [List.foldlM_cons, bind_ok] at h
    obtain ⟨next, hnext, hrest⟩ := h
    exact (ih hrest).trans (symbolBoundary_le hnext)

theorem approvalValidUntil_ok {required : List SymbolCode} {validUntil : Int}
    (h : approvalValidUntil request required = .ok validUntil) :
    request.evaluatedAt < validUntil ∧ validUntil ≤ request.intent.signalExpiresAt := by
  simp only [approvalValidUntil, bind_ok, exists_unit, reject_ok, pure_ok, not_le] at h
  obtain ⟨ttl, -, observed, hobserved, until_, huntil, hopen, rfl⟩ := h
  refine ⟨hopen, ?_⟩
  calc until_ ≤ observed := symbolBoundaries_le huntil
    _ ≤ min request.intent.signalExpiresAt ttl := earliest_le hobserved
    _ ≤ request.intent.signalExpiresAt := min_le_left _ _

/-! ## the request -/

/-- what the evaluator has found of a request it approves as `result` -/
structure Checked (request : RiskRequest F) (result : RiskResult F) : Prop where
  evaluatedAt : 0 ≤ request.evaluatedAt
  strategyId : blank request.intent.strategyId = false
  accountId : blank request.intent.accountId = false
  decided : 0 ≤ request.intent.decisionTimestamp ∧
    request.intent.decisionTimestamp ≤ request.intent.requestedAt
  requestedAt : request.intent.requestedAt ≤ request.evaluatedAt
  open_ : request.evaluatedAt < request.intent.signalExpiresAt
  validUntil : request.evaluatedAt < result.validUntil ∧
    result.validUntil ≤ request.intent.signalExpiresAt
  metadataAccount : ∀ m ∈ request.symbolMetadata, m.accountId = request.intent.accountId
  metadataDistinct : (request.symbolMetadata.map SymbolMetadataSnapshot.symbol).Nodup
  brokerSymbol : ∀ symbol ∈ requiredSymbols request, ∀ m,
    metadataOf request symbol = some m → blank m.brokerSymbol = false
  candidateIds : (request.sizingCandidates.map PositionSizingCandidate.legId).Nodup
  candidateText : ∀ c ∈ request.sizingCandidates, blank c.legId = false ∧ blank c.symbol = false

/-- the result carries the identity of its request -/
structure SameIdentity (request : RiskRequest F) (hash : String) (result : RiskResult F) :
    Prop where
  riskId : result.riskId = request.riskId
  requestId : result.requestId = request.requestId
  intentId : result.intentId = request.intent.intentId
  accountId : result.accountId = request.intent.accountId
  decisionId : result.decisionId = request.intent.decisionId
  evaluatedAt : result.evaluatedAt = request.evaluatedAt
  requestHash : result.riskRequestHash = hash

/-- a prepared leg was sized at some scale and adjusted -/
def SizedAs (p : PreparedLeg F) (a : AdjustedRiskLeg F) : Prop :=
  ∃ scale base s, sizeLeg scale p = .ok s ∧ adjustLeg base s = .ok a

/-- the approved legs come from the prepared ones, which come from the expected ones -/
structure SizedFrom (request : RiskRequest F) (expected : List (ExpectedLeg F))
    (result : RiskResult F) : Prop where
  expects : expectedLegs request = .ok expected
  length : expected.length = request.sizingCandidates.length
  legs : ∃ prepared adjusted,
    List.Forall₂ (fun e p => prepareLeg request e = .ok p)
      (expected.insertionSort fun x y => x.legId ≤ y.legId) prepared ∧
    List.Forall₂ SizedAs prepared adjusted ∧
    result.adjustedLegs = some adjusted ∧
    result.sizingCandidates = some (prepared.map PreparedLeg.provenance)

theorem validateRequestIdentity_ok (h : validateRequestIdentity request = .ok ()) :
    0 ≤ request.evaluatedAt ∧ blank request.intent.strategyId = false ∧
      blank request.intent.accountId = false ∧
      ∀ m ∈ request.symbolMetadata, m.accountId = request.intent.accountId := by
  simp only [validateRequestIdentity, bind_ok, exists_unit, reject_ok, each_ok, not_lt,
    List.forall_mem_cons, Bool.not_eq_true, ne_eq, not_not] at h
  obtain ⟨htime, ⟨-, -, -, -, hstrategy, haccount, -⟩, -, -, -, -, -, hmetadata, -⟩ := h
  exact ⟨htime, hstrategy, haccount, hmetadata⟩

theorem validateControlTime_ok (h : validateControlTime request = .ok ()) :
    (0 ≤ request.intent.decisionTimestamp ∧
        request.intent.decisionTimestamp ≤ request.intent.requestedAt) ∧
      request.intent.requestedAt ≤ request.evaluatedAt ∧
      request.evaluatedAt < request.intent.signalExpiresAt := by
  simp only [validateControlTime, bind_ok, exists_unit, reject_ok, not_or, not_lt, not_le] at h
  obtain ⟨-, ⟨-, hdecision, -, hdecided, hrequested, -⟩, hopen⟩ := h
  exact ⟨⟨hdecision, hdecided⟩, hrequested, hopen⟩

theorem validateSymbolInputs_broker {required : List SymbolCode}
    (h : validateSymbolInputs request required = .ok ()) {symbol : SymbolCode}
    (hsymbol : symbol ∈ required) {m : SymbolMetadataSnapshot F}
    (hm : metadataOf request symbol = some m) : blank m.brokerSymbol = false := by
  have hinput := each_ok.mp h symbol hsymbol
  simp only [validateSymbolInput, bind_ok, exists_unit, need_ok, reject_ok, Bool.not_eq_true]
    at hinput
  obtain ⟨metadata, hfound, _, -, hbroker, -⟩ := hinput
  rw [hm] at hfound
  cases hfound
  exact hbroker

variable {prepared : List (PreparedLeg F)}

theorem prepareLegs_ok (h : prepareLegs request = .ok prepared) :
    (request.sizingCandidates.map PositionSizingCandidate.legId).Nodup ∧
      (∀ c ∈ request.sizingCandidates, blank c.legId = false ∧ blank c.symbol = false) ∧
      ∃ expected, expectedLegs request = .ok expected ∧
        expected.length = request.sizingCandidates.length ∧
        List.Forall₂ (fun e p => prepareLeg request e = .ok p)
          (expected.insertionSort fun x y => x.legId ≤ y.legId) prepared := by
  simp only [prepareLegs, bind_ok, exists_unit, reject_ok, collect_ok, eachApart_key_ok, not_or,
    Bool.not_eq_true, ne_eq, not_not] at h
  obtain ⟨⟨hnodup, htext⟩, expected, hexpected, hlength, hprepared⟩ := h
  exact ⟨hnodup, fun c hc => (htext c hc).1, expected, hexpected, hlength, hprepared⟩

theorem sizeAndCap_ok {active : List (ExecutionCommand F)} {base : ℚ} {ages : AuditAges}
    {validUntil : Int} {approval : ActionableApproval F}
    (h : sizeAndCap request prepared active base ages validUntil = .ok approval) :
    List.Forall₂ SizedAs prepared approval.legs ∧
      approval.candidates = prepared.map PreparedLeg.provenance ∧
      approval.validUntil = validUntil := by
  simp only [sizeAndCap, bind_ok, exists_unit, pure_ok, collect_ok] at h
  obtain ⟨capped, -, sized, hsized, -, _, -, adjusted, hadjusted, rfl⟩ := h
  have hleg : ∀ {p : PreparedLeg F} {s : SizedLeg F}, sizeLeg capped.scale p = .ok s → s.leg = p := by
    intro p s hs
    simp only [sizeLeg, bind_ok, exists_unit, pure_ok] at hs
    obtain ⟨_, -, _, -, -, -, _, -, -, rfl⟩ := hs
    rfl
  refine ⟨?_, ?_, rfl⟩
  · clear hleg
    induction hsized generalizing adjusted with
    | nil =>
      cases hadjusted
      exact List.Forall₂.nil
    | cons hs _ ih =>
      cases hadjusted with
      | cons ha hrest => exact List.Forall₂.cons ⟨_, _, _, hs, ha⟩ (ih _ hrest)
  · show sized.map (fun s => s.leg.provenance) = prepared.map PreparedLeg.provenance
    clear hadjusted
    induction hsized with
    | nil => rfl
    | cons hs _ ih => rw [List.map_cons, List.map_cons, ih, hleg hs]

theorem evaluate_opened {digest : RequestDigest F} {breaker : CircuitBreakerState}
    {result : RiskResult F} (h : evaluate digest request breaker = .ok result)
    (happroved : result.approved = true)
    (haction : request.intent.action = .buy ∨ request.intent.action = .sell) :
    Checked request result ∧ SameIdentity request (digest.hash request) result ∧
      result.validate = .ok () ∧ ∃ expected, SizedFrom request expected result := by
  obtain ⟨approval, hinner, rfl, hvalid⟩ := evaluate_approved h happroved
  have hidentity : validateRequestIdentity request = .ok () := by
    simp only [evaluateInner, bind_ok, exists_unit] at hinner
    exact hinner.1
  obtain ⟨opened, rfl⟩ : ∃ opened, approval = .actionable opened := by
    simp only [evaluateInner, bind_ok, exists_unit] at hinner
    obtain ⟨-, -, hinner⟩ := hinner
    rcases haction with haction | haction
    all_goals
      simp only [haction, bind_ok, exists_unit, pure_ok] at hinner
      obtain ⟨-, opened, -, rfl⟩ := hinner
      exact ⟨opened, rfl⟩
  obtain ⟨-, -, hopening⟩ := evaluateInner_actionable hinner
  simp only [evaluateOpening, bind_ok, exists_unit] at hopening
  obtain ⟨hcontrol, -, hindex, ages, -, base, -, hsymbols, prepared, hprepared, -, active, -, -, -,
    validUntil, huntil, hsizing⟩ := hopening
  obtain ⟨htime, hstrategy, haccount, hmetadata⟩ := validateRequestIdentity_ok hidentity
  obtain ⟨hdecided, hrequested, hopen⟩ := validateControlTime_ok hcontrol
  obtain ⟨hnodup, htext, expected, hexpected, hlength, hlegs⟩ := prepareLegs_ok hprepared
  obtain ⟨hsized, hcandidates, hends⟩ := sizeAndCap_ok hsizing
  have hdistinct : (request.symbolMetadata.map SymbolMetadataSnapshot.symbol).Nodup := by
    simp only [indexSnapshots, bind_ok, exists_unit, eachApart_key_ok] at hindex
    exact hindex.1.1
  have hwindow := approvalValidUntil_ok huntil
  rw [← hends] at hwindow
  refine ⟨⟨htime, hstrategy, haccount, hdecided, hrequested, hopen, hwindow, hmetadata, hdistinct,
    fun symbol hsymbol m hm => validateSymbolInputs_broker hsymbols hsymbol hm, hnodup, htext⟩,
    ⟨rfl, rfl, rfl, rfl, rfl, rfl, rfl⟩, hvalid, expected, hexpected, hlength, prepared, opened.legs,
    hlegs, hsized, rfl, ?_⟩
  show some opened.candidates = _
  rw [hcandidates]

end

end Sinan.Risk
