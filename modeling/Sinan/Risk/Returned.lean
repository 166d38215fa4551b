import Sinan.Risk.Evaluator

/-!
# What the evaluator returns

`evaluate` has no result only for a request that no result can name.  Everything else is a result
that passes its own validation: a refusal always does, whatever the timestamps and numbers of the
request are, and an approval that does not is turned into a refusal.
-/

set_option linter.unusedSectionVars false

namespace Sinan.Risk

open Lib
open Breaker

section
variable {F : Type} [F64 F]

/-! ## identities -/

/-- a result can name the request -/
structure Nameable (request : RiskRequest F) : Prop where
  riskId : blank request.riskId = false
  requestId : blank request.requestId = false
  intentId : blank request.intent.intentId = false
  accountId : blank request.intent.accountId = false
  decisionId : blank request.intent.decisionId = false
  evaluatedAt : 0 ≤ request.evaluatedAt

theorem validateResultIdentity_ok {request : RiskRequest F} :
    validateResultIdentity request = .ok () ↔ Nameable request := by
  simp only [validateResultIdentity, bind_ok, exists_unit, each_ok, reject_ok, List.forall_mem_cons,
    List.not_mem_nil, false_imp_iff, forall_const, and_true, not_lt, Bool.not_eq_true]
  constructor
  · rintro ⟨⟨hrisk, hrequest, hintent, haccount, hdecision⟩, htime⟩
    exact ⟨hrisk, hrequest, hintent, haccount, hdecision, htime⟩
  · intro h
    exact ⟨⟨h.riskId, h.requestId, h.intentId, h.accountId, h.decisionId⟩, h.evaluatedAt⟩

/-- the result carries the identity and the time of its request -/
def Names (request : RiskRequest F) (hash : String) (result : RiskResult F) : Prop :=
  result.riskId = request.riskId ∧ result.requestId = request.requestId ∧
    result.intentId = request.intent.intentId ∧ result.accountId = request.intent.accountId ∧
    result.decisionId = request.intent.decisionId ∧ result.evaluatedAt = request.evaluatedAt ∧
    result.riskRequestHash = hash

/-! ## ages -/

theorem bestEffortAge_nonneg (now observedAt : Int) : 0 ≤ bestEffortAge now observedAt :=
  le_max_right _ _

theorem le_foldl_max {α : Type} (age : α → Int) (xs : List α) (start : Int) :
    start ≤ xs.foldl (fun a x => max a (age x)) start := by
  induction xs generalizing start with
  | nil => exact le_rfl
  | cons x xs ih =>
    rw [List.foldl_cons]
    calc start ≤ max start (age x) := le_max_left _ _
      _ ≤ _ := ih _

structure AuditAges.Nonneg (ages : AuditAges) : Prop where
  snapshot : 0 ≤ ages.snapshot
  market : 0 ≤ ages.market
  metadata : 0 ≤ ages.metadata
  capacity : 0 ≤ ages.capacity

theorem bestEffort_nonneg (request : RiskRequest F) : (AuditAges.bestEffort request).Nonneg where
  snapshot := by
    have hstart := bestEffortAge_nonneg request.evaluatedAt request.account.observedAt
    exact hstart.trans (le_foldl_max (bestEffortAge request.evaluatedAt) _ _)
  market := le_foldl_max id _ 0
  metadata := le_foldl_max id _ 0
  capacity := bestEffortAge_nonneg _ _

/-! ## drafts -/

theorem asStr_ne_ok (code : ErrorCode) : code.asStr ≠ "OK" := by
  cases code <;> decide

theorem validateHeader_ok {request : RiskRequest F} {digest : RequestDigest F} {result : RiskResult F}
    (hnameable : Nameable request) (hnames : Names request (digest.hash request) result)
    (hages : 0 ≤ result.snapshotAgeMs ∧ 0 ≤ result.symbolMetadataAgeMs ∧
      0 ≤ result.marketSnapshotAgeMs ∧ 0 ≤ result.capacityAgeMs)
    (huntil : result.evaluatedAt ≤ result.validUntil) : result.validateHeader = .ok () := by
  obtain ⟨hrisk, hrequest, hintent, haccount, hdecision, htime, hhash⟩ := hnames
  obtain ⟨hsnapshot, hmetadata, hmarket, hcapacity⟩ := hages
  simp only [RiskResult.validateHeader, validateNonEmpty, validateSha256, validateNonNegative, bind_ok,
    exists_unit, reject_ok, not_lt, Bool.not_eq_true, Bool.not_eq_false]
  rw [hrisk, hrequest, hintent, haccount, hdecision, hhash]
  refine ⟨hnameable.riskId, hnameable.requestId, hnameable.intentId, hnameable.accountId,
    hnameable.decisionId, digest.isSha256 request, hsnapshot, hmetadata, hmarket, hcapacity, ?_,
    huntil⟩
  rw [htime]
  exact hnameable.evaluatedAt

theorem rejectedResult_valid {request : RiskRequest F} (digest : RequestDigest F)
    (hnameable : Nameable request) {ages : AuditAges} (hages : ages.Nonneg) (rejection : Rejection) :
    (rejectedResult request (digest.hash request) ages rejection).validate = .ok () := by
  have htime : max request.evaluatedAt 0 = request.evaluatedAt := max_eq_left hnameable.evaluatedAt
  have hheader : (rejectedResult request (digest.hash request) ages rejection).validateHeader
      = .ok () :=
    validateHeader_ok hnameable ⟨rfl, rfl, rfl, rfl, rfl, htime, rfl⟩
      ⟨hages.snapshot, hages.metadata, hages.market, hages.capacity⟩ le_rfl
  unfold RiskResult.validate
  rw [hheader]
  show RiskResult.validateRejected _ = .ok ()
  simp only [RiskResult.validateRejected, bind_ok, exists_unit, reject_ok]
  exact ⟨asStr_ne_ok _, Bool.noConfusion, Bool.noConfusion⟩

theorem draftResult_names {request : RiskRequest F} (hnameable : Nameable request) (hash : String)
    (outcome : Evaluation (Approval F)) : Names request hash (draftResult request hash outcome) := by
  have htime : max request.evaluatedAt 0 = request.evaluatedAt := max_eq_left hnameable.evaluatedAt
  match outcome with
  | .ok (.noOp validUntil) => exact ⟨rfl, rfl, rfl, rfl, rfl, rfl, rfl⟩
  | .ok (.actionable approval) => exact ⟨rfl, rfl, rfl, rfl, rfl, rfl, rfl⟩
  | .error rejection => exact ⟨rfl, rfl, rfl, rfl, rfl, htime, rfl⟩

/-- a refusal ends as it starts, and gives a known code and no sizing -/
structure Refusal (result : RiskResult F) : Prop where
  validUntil : result.validUntil = result.evaluatedAt
  reason : ∃ code, result.reason = .known code
  sizing : ∀ present ∈ result.sizingFields, present = false

theorem rejectedResult_refusal (request : RiskRequest F) (hash : String) (ages : AuditAges)
    (rejection : Rejection) : Refusal (rejectedResult request hash ages rejection) where
  validUntil := rfl
  reason := ⟨rejection.code, rfl⟩
  sizing := by
    intro present hpresent
    simp only [RiskResult.sizingFields, rejectedResult, Option.isSome_none, List.mem_cons,
      List.not_mem_nil, or_false, or_self] at hpresent
    exact hpresent

theorem draftResult_refusal {request : RiskRequest F} {hash : String}
    {outcome : Evaluation (Approval F)} (h : (draftResult request hash outcome).approved = false) :
    Refusal (draftResult request hash outcome) := by
  match outcome with
  | .ok (.noOp validUntil) => exact Bool.noConfusion h
  | .ok (.actionable approval) => exact Bool.noConfusion h
  | .error rejection => exact rejectedResult_refusal _ _ _ _

/-! ## the evaluator -/

/-- what `evaluate` returns for a request -/
structure Returned (request : RiskRequest F) (hash : String) (result : RiskResult F) : Prop where
  valid : result.validate = .ok ()
  names : Names request hash result
  refusal : result.approved = false → Refusal result

section
variable {request : RiskRequest F} {digest : RequestDigest F} {breaker : CircuitBreakerState}

theorem evaluate_valid (h : Nameable request)
    (hvalid : (draftResult request (digest.hash request)
      (evaluateInner request breaker)).validate = .ok ()) :
    evaluate digest request breaker
      = .ok (draftResult request (digest.hash request) (evaluateInner request breaker)) := by
  unfold evaluate
  rw [validateResultIdentity_ok.mpr h]
  dsimp only
  rw [hvalid]
  rfl

theorem evaluate_downgraded (h : Nameable request) {approval : Approval F}
    (hinner : evaluateInner request breaker = .ok approval) {error : RiskResultValidationError}
    (hinvalid : (draftResult request (digest.hash request) (.ok approval)).validate
      = .error error) :
    evaluate digest request breaker
      = .ok (rejectedResult request (digest.hash request) (AuditAges.bestEffort request)
          (inputInvalid ("invalid evaluator output at " ++ error.field ++ ": " ++ error.reason))) := by
  have happroved : (draftResult request (digest.hash request) (.ok approval)).approved = true := by
    cases approval with
    | noOp validUntil => rfl
    | actionable approval => rfl
  have hrejected := rejectedResult_valid digest h (bestEffort_nonneg request)
    (inputInvalid ("invalid evaluator output at " ++ error.field ++ ": " ++ error.reason))
  unfold evaluate
  rw [validateResultIdentity_ok.mpr h, hinner]
  dsimp only
  rw [hinvalid]
  dsimp only
  rw [if_pos happroved, hrejected]
  rfl

theorem evaluate_nameable (h : Nameable request) :
    ∃ result, evaluate digest request breaker = .ok result ∧
      Returned request (digest.hash request) result := by
  cases hvalid : (draftResult request (digest.hash request)
      (evaluateInner request breaker)).validate with
  | ok u => exact ⟨_, evaluate_valid h hvalid, hvalid, draftResult_names h _ _, draftResult_refusal⟩
  | error error =>
    cases hinner : evaluateInner request breaker with
    | error rejection =>
      -- a refusal is never invalid
      have hrejected := rejectedResult_valid digest h (bestEffort_nonneg request) rejection
      rw [hinner] at hvalid
      cases (hrejected.symm.trans hvalid)
    | ok approval =>
      rw [hinner] at hvalid
      have hrejected := rejectedResult_valid digest h (bestEffort_nonneg request)
        (inputInvalid ("invalid evaluator output at " ++ error.field ++ ": " ++ error.reason))
      exact ⟨_, evaluate_downgraded h hinner hvalid, hrejected,
        draftResult_names h _ (.error _), fun _ => rejectedResult_refusal _ _ _ _⟩

/-- `evaluate` fails exactly for the requests that no result can name, and what it returns for the
others is valid, named after the request, and if refused without a window, with a known code and
without sizing. -/
theorem evaluate_fails_closed (digest : RequestDigest F) (request : RiskRequest F)
    (breaker : CircuitBreakerState) :
    ((∃ error, evaluate digest request breaker = .error error) ↔
      (blank request.riskId = true ∨ blank request.requestId = true ∨
        blank request.intent.intentId = true ∨ blank request.intent.accountId = true ∨
        blank request.intent.decisionId = true ∨ request.evaluatedAt < 0)) ∧
    ((∃ error, evaluate digest request breaker = .error error) ∨
      ∃ result, evaluate digest request breaker = .ok result ∧
        Returned request (digest.hash request) result) := by
  by_cases h : Nameable request
  · obtain ⟨result, hresult, hreturned⟩ := @evaluate_nameable F _ request digest breaker h
    refine ⟨⟨?_, ?_⟩, .inr ⟨result, hresult, hreturned⟩⟩
    · rintro ⟨error, herror⟩
      cases (hresult.symm.trans herror)
    · rintro (hblank | hblank | hblank | hblank | hblank | htime)
      · exact Bool.noConfusion (h.riskId.symm.trans hblank)
      · exact Bool.noConfusion (h.requestId.symm.trans hblank)
      · exact Bool.noConfusion (h.intentId.symm.trans hblank)
      · exact Bool.noConfusion (h.accountId.symm.trans hblank)
      · exact Bool.noConfusion (h.decisionId.symm.trans hblank)
      · exact absurd htime (not_lt.mpr h.evaluatedAt)
  · have herror : ∃ error, evaluate digest request breaker = .error error := by
      cases hidentity : validateResultIdentity request with
      | ok u => exact absurd (validateResultIdentity_ok.mp hidentity) h
      | error error =>
        refine ⟨error, ?_⟩
        unfold evaluate
        rw [hidentity]
        rfl
    refine ⟨⟨fun _ => ?_, fun _ => herror⟩, .inl herror⟩
    by_contra hnone
    simp only [not_or, Bool.not_eq_true, not_lt] at hnone
    obtain ⟨hrisk, hrequest, hintent, haccount, hdecision, htime⟩ := hnone
    exact h ⟨hrisk, hrequest, hintent, haccount, hdecision, htime⟩

end

end

end Sinan.Risk
