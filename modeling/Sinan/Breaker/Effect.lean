import Sinan.Breaker.Violations

/-!
# Circuit breaker: what one step can do

`transition_effect` reads the whole of `transition` once and says what a call can have done: left
the state alone, opened an incident, cleared the evidence of one, entered HALF_OPEN, closed, or
raised the blocked-intent count.  Every case carries the guards of the source that lead to it.
The invariants of the later modules are case analyses of `Effect` and unfold nothing.
-/

namespace Sinan.Breaker

open Lib CircuitBreakerOutcome

/-! ## the clock of a state -/

/-- no timestamp of the state is after `t` -/
def CircuitBreakerState.notAfter (s : CircuitBreakerState) (t : Int) : Prop :=
  ∀ x ∈ s.timestamps, x ≤ t

theorem notAfter_of_latest_none {s : CircuitBreakerState} (h : s.latestTransitionAtMs = none)
    (t : Int) : s.notAfter t := by
  intro x hx
  rw [List.max?_eq_none_iff.mp h] at hx
  exact absurd hx List.not_mem_nil

theorem notAfter_of_latest {s : CircuitBreakerState} {latest : Int}
    (h : s.latestTransitionAtMs = some latest) : s.notAfter latest :=
  fun x hx => (List.max?_eq_some_iff.mp h).2 x hx

theorem notAfter_mono {s : CircuitBreakerState} {t u : Int} (h : s.notAfter t) (htu : t ≤ u) :
    s.notAfter u :=
  fun x hx => Int.le_trans (h x hx) htu

theorem fallbackAtMs_nonneg (s : CircuitBreakerState) (t : Int) : 0 ≤ fallbackAtMs s t := by
  unfold fallbackAtMs
  split <;> omega

theorem notAfter_fallbackAtMs (s : CircuitBreakerState) (t : Int) :
    s.notAfter (fallbackAtMs s t) := by
  unfold fallbackAtMs
  split
  case h_1 h => exact notAfter_of_latest_none h _
  case h_2 latest h => exact notAfter_mono (notAfter_of_latest h) (by omega)

/-! ## the effects -/

/-- the telemetry a request carries -/
def TransitionRequest.input? : TransitionRequest → Option CircuitBreakerInput
  | .observe input => some input
  | .enterHalfOpen _ input => some input
  | .close health _ => some health.input
  | .recordBlockedIntentCount _ => none

/-- the request reports a new hard risk violation with its close -/
def TransitionRequest.hardRisk : TransitionRequest → Bool
  | .close health _ => health.newHardRiskViolation
  | _ => false

/-- The input shows losses not above the two baselines and violates nothing else: whatever
`collect_violations` finds in it is a loss limit. -/
structure Quiet (p : CircuitBreakerPolicy) (daily drawdown : Nat) (input : CircuitBreakerInput)
    (t : Int) : Prop where
  daily : input.dailyRealizedLossBps ≤ daily
  drawdown : input.equityDrawdownBps ≤ drawdown
  other : ∃ vs, collectViolations p input t = .ok vs ∧ ∀ v ∈ vs, v.isLossLimit = true

/-- a request a half-open breaker has nothing against -/
def QuietRequest (p : CircuitBreakerPolicy) (s : CircuitBreakerState) (r : TransitionRequest)
    (t : Int) : Prop :=
  ∀ daily drawdown, s.halfOpenDailyLossBaselineBps = some daily →
    s.halfOpenDrawdownBaselineBps = some drawdown →
    (∀ input, r.input? = some input → Quiet p daily drawdown input t) ∧ r.hardRisk = false

/-- the transitions that open an incident -/
def CircuitBreakerTransition.opens : CircuitBreakerTransition → Prop
  | .opened | .reopened | .safetyFallbackOpened => True
  | _ => False

/-- The outcome is a fresh incident under the next epoch, or under the same one when the epochs
are exhausted. -/
structure Opens (s : CircuitBreakerState) (o : CircuitBreakerOutcome) : Prop where
  state : ∃ epoch reason source fingerprint atMs,
    o.state = incidentState s epoch reason source fingerprint atMs ∧
    Explains fingerprint reason source ∧ 0 ≤ atMs ∧ s.notAfter atMs ∧
    (s.recoveryEpoch < u64Max ∧ epoch = s.recoveryEpoch + 1 ∨
      ¬ s.recoveryEpoch < u64Max ∧ epoch = s.recoveryEpoch)
  transition : o.transition.opens

/-- all five refreshes happened after the incident and before `t` -/
def Refreshed (readiness : HalfOpenReadiness) (triggeredAtMs t : Int) : Prop :=
  ∀ e ∈ readiness.evidence, ∃ x, e.2.1 = some x ∧ triggeredAtMs ≤ x ∧ x ≤ t

/-- everything `transition p s r t` can come to -/
inductive Effect (p : CircuitBreakerPolicy) (s : CircuitBreakerState) (r : TransitionRequest)
    (t : Int) (o : CircuitBreakerOutcome) : Prop where
  | stays (state : o.state = s) (transition : o.transition = .noChange)
      (quiet : s.status = .halfOpen → QuietRequest p s r t)
  | opens (h : Opens s o)
  | clears (fingerprint : CircuitBreakerIncidentFingerprint)
      (status : s.status = .open) (explained : s.lastIncidentFingerprint = some fingerprint)
      (nonneg : 0 ≤ t) (after : s.notAfter t)
      (state : o.state = { s with lastIncidentFingerprint := none,
                                  incidentEvidenceClearedAtMs := some t })
      (transition : o.transition = .incidentEvidenceCleared)
  | admits (readiness : HalfOpenReadiness) (input : CircuitBreakerInput) (triggeredAtMs : Int)
      (request : r = .enterHalfOpen readiness input)
      (status : s.status = .open) (triggered : s.triggeredAtMs = some triggeredAtMs)
      (epoch : readiness.recoveryEpoch = s.recoveryEpoch)
      (refreshed : Refreshed readiness triggeredAtMs t)
      (nonneg : 0 ≤ t) (after : s.notAfter t)
      (state : o.state = { s with
        status := .halfOpen
        halfOpenedAtMs := some t
        halfOpenDailyLossBaselineBps := some input.dailyRealizedLossBps
        halfOpenDrawdownBaselineBps := some input.equityDrawdownBps })
      (transition : o.transition = .enteredHalfOpen)
  | closes (halfOpenedAtMs : Int) (resetBy : String)
      (status : s.status = .halfOpen) (halfOpened : s.halfOpenedAtMs = some halfOpenedAtMs)
      (observed : p.halfOpenObservationMs ≤ t - halfOpenedAtMs)
      (named : blank resetBy = false) (quiet : QuietRequest p s r t)
      (nonneg : 0 ≤ t) (after : s.notAfter t)
      (state : o.state = closedState s resetBy t)
      (transition : o.transition = .closed)
  | counts (observedTotal : Nat) (request : r = .recordBlockedIntentCount observedTotal)
      (larger : s.blockedIntentCount < observedTotal)
      (state : o.state = { s with blockedIntentCount := observedTotal })
      (transition : o.transition = .blockedIntentCountAdvanced)

/-! ## opening an incident -/

section
variable {s : CircuitBreakerState}

theorem recoveryEpochOverflow_opens (h : ¬ s.recoveryEpoch < u64Max) (t : Int) :
    Opens s (recoveryEpochOverflow s t) where
  state := ⟨_, _, _, _, _, rfl, explains_error rfl, fallbackAtMs_nonneg s t,
    notAfter_fallbackAtMs s t, Or.inr ⟨h, rfl⟩⟩
  transition := trivial

theorem openBreaker_opens {vs : List CircuitBreakerViolation} (hne : vs ≠ [])
    {fp : CircuitBreakerIncidentFingerprint} {atMs : Int} (reopened : Bool)
    (hex : Explains fp (vs.head hne).reason (vs.head hne).source) (h0 : 0 ≤ atMs)
    (hn : s.notAfter atMs) : Opens s (openBreaker s vs hne fp atMs reopened) := by
  unfold openBreaker
  split
  case h_1 h => exact recoveryEpochOverflow_opens (checkedSucc_none h) atMs
  case h_2 epoch h =>
    obtain ⟨rfl, hlt⟩ := checkedSucc_some h
    refine ⟨⟨_, _, _, _, _, rfl, hex, h0, hn, Or.inl ⟨hlt, rfl⟩⟩, ?_⟩
    cases reopened <;> trivial

theorem asSafetyFallback_opens {o : CircuitBreakerOutcome} (h : Opens s o)
    (e : CircuitBreakerError) : Opens s (asSafetyFallback o e) := by
  unfold asSafetyFallback
  split
  · exact h
  · exact ⟨h.state, trivial⟩

theorem safetyFallback_effect (p : CircuitBreakerPolicy) (r : TransitionRequest) (t u : Int)
    {e : CircuitBreakerError} (he : errorFingerprintHasBlankText e = false) :
    Effect p s r u (safetyFallback s t e) := by
  have hopens : ∀ reopened, Opens s (asSafetyFallback (openBreaker s [.safetyInvariantViolation]
      (by simp) [.safetyInvariantError e] (fallbackAtMs s t) reopened) e) := fun reopened =>
    asSafetyFallback_opens (openBreaker_opens _ reopened (explains_error he)
      (fallbackAtMs_nonneg s t) (notAfter_fallbackAtMs s t)) e
  unfold safetyFallback
  dsimp only
  split
  case isTrue hopen =>
    split
    · exact .opens (hopens true)
    · refine .stays rfl rfl fun hhalf => ?_
      rw [hopen] at hhalf
      exact (nomatch hhalf)
  case isFalse => exact .opens (hopens _)

end

/-! ## the texts of the errors that open an incident -/

variable {e : CircuitBreakerError}

theorem validate_error_text {p : CircuitBreakerPolicy} (h : p.validate = .error e) :
    errorFingerprintHasBlankText e = false := by
  unfold CircuitBreakerPolicy.validate at h
  split at h
  case h_1 fv hfind =>
    rw [← Except.error.inj h]
    have hmem := List.mem_of_find?_eq_some hfind
    simp only [CircuitBreakerPolicy.requiredPositive, List.mem_cons, List.not_mem_nil,
      or_false] at hmem
    rcases hmem with rfl | rfl | rfl | rfl | rfl <;> (dsimp only; rfl)
  case h_2 =>
    split at h
    · rw [← Except.error.inj h]; rfl
    · exact (nomatch h)

theorem validateNonBlank_error_text {field value : String} (hfield : blank field = false)
    (h : validateNonBlank field value = .error e) :
    errorFingerprintHasBlankText e = false := by
  unfold validateNonBlank at h
  split at h
  · rw [← Except.error.inj h]
    show (blank field || blank "must not be blank") = false
    rw [hfield]
    rfl
  · exact (nomatch h)

theorem validateManualTrigger_error_text {m : Option ManualTrigger}
    (h : validateManualTrigger m = .error e) : errorFingerprintHasBlankText e = false := by
  cases m with
  | none => exact (nomatch h)
  | some trigger =>
    simp only [validateManualTrigger] at h
    cases h1 : validateNonBlank "manual_trigger.operator_id" trigger.operatorId with
    | error e' =>
      rw [h1] at h
      rw [← Except.error.inj h]
      exact validateNonBlank_error_text rfl h1
    | ok u =>
      rw [h1] at h
      exact validateNonBlank_error_text rfl h

theorem timeSyncViolations_error_text {p : CircuitBreakerPolicy} {since : Option Int} {t : Int}
    (h : timeSyncViolations p since t = .error e) :
    errorFingerprintHasBlankText e = false := by
  unfold timeSyncViolations at h
  split at h
  · exact (nomatch h)
  · split at h
    · rw [← Except.error.inj h]; rfl
    · split at h
      · rw [← Except.error.inj h]; rfl
      · exact (nomatch h)

theorem collectViolations_error_text {p : CircuitBreakerPolicy} {input : CircuitBreakerInput}
    {t : Int} (h : collectViolations p input t = .error e) :
    errorFingerprintHasBlankText e = false := by
  unfold collectViolations at h
  cases h1 : validateManualTrigger input.manualTrigger with
  | error e' =>
    rw [h1] at h
    rw [← Except.error.inj h]
    exact validateManualTrigger_error_text h1
  | ok u =>
    cases h2 : timeSyncViolations p input.timeSyncUnhealthySinceMs t with
    | error e' =>
      rw [h1, h2] at h
      rw [← Except.error.inj h]
      exact timeSyncViolations_error_text h2
    | ok timeSync =>
      rw [h1, h2] at h
      exact (nomatch h)

theorem filterHalfOpenViolations_error_text {s : CircuitBreakerState} {all}
    {input : CircuitBreakerInput} (h : filterHalfOpenViolations s all input = .error e) :
    errorFingerprintHasBlankText e = false := by
  unfold filterHalfOpenViolations at h
  split at h
  · exact (nomatch h)
  · rw [← Except.error.inj h]; rfl

theorem missingPrerequisites_error_text {triggeredAtMs t : Int}
    (es : List (String × Option Int × RecoveryPrerequisite)) (hes : ∀ x ∈ es, blank x.1 = false)
    (h : missingPrerequisites triggeredAtMs t es = .error e) :
    errorFingerprintHasBlankText e = false := by
  induction es with
  | nil => exact (nomatch h)
  | cons x es ih =>
    obtain ⟨field, observedAtMs, prerequisite⟩ := x
    unfold missingPrerequisites at h
    split at h
    · rw [← Except.error.inj h]
      show (blank field || blank "must be between zero and server_now_ms") = false
      rw [hes _ List.mem_cons_self]
      rfl
    · cases hrest : missingPrerequisites triggeredAtMs t es with
      | error e' =>
        rw [hrest] at h
        obtain rfl := Except.error.inj h
        exact ih (fun x hx => hes x (List.mem_cons_of_mem _ hx)) hrest
      | ok missing =>
        rw [hrest] at h
        exact (nomatch h)

theorem evidence_fields_named (r : HalfOpenReadiness) : ∀ x ∈ r.evidence, blank x.1 = false := by
  intro x hx
  simp only [HalfOpenReadiness.evidence, List.mem_cons, List.not_mem_nil, or_false] at hx
  rcases hx with rfl | rfl | rfl | rfl | rfl <;> (dsimp only; rfl)

theorem missingPrerequisites_nil {triggeredAtMs t : Int}
    (es : List (String × Option Int × RecoveryPrerequisite))
    (h : missingPrerequisites triggeredAtMs t es = .ok []) :
    ∀ e ∈ es, ∃ x, e.2.1 = some x ∧ triggeredAtMs ≤ x ∧ x ≤ t := by
  induction es with
  | nil => exact fun e he => absurd he List.not_mem_nil
  | cons entry es ih =>
    obtain ⟨field, observedAtMs, prerequisite⟩ := entry
    unfold missingPrerequisites at h
    split at h
    · exact (nomatch h)
    case isFalse hinside =>
      obtain ⟨missing, hrest, hhead⟩ := bind_ok.mp h
      have hhead := pure_ok.mp hhead
      cases observedAtMs with
      | none => exact (nomatch hhead)
      | some x =>
        simp only [Option.any_some, Bool.or_eq_true, decide_eq_true_eq, not_or] at hinside
        simp only [Option.all_some, decide_eq_true_eq] at hhead
        split at hhead
        · exact (nomatch hhead)
        · intro e he
          rw [hhead] at hrest
          rcases List.mem_cons.mp he with rfl | he
          · exact ⟨x, rfl, by omega, by omega⟩
          · exact ih hrest e he

/-! ## the requests -/

section
variable {p : CircuitBreakerPolicy} {s : CircuitBreakerState} {t : Int}
  {input : CircuitBreakerInput} {all : List CircuitBreakerViolation}

theorem quiet_of_filter (hall : collectViolations p input t = .ok all)
    (h : filterHalfOpenViolations s all input = .ok []) {daily drawdown : Nat}
    (hdaily : s.halfOpenDailyLossBaselineBps = some daily)
    (hdrawdown : s.halfOpenDrawdownBaselineBps = some drawdown) :
    Quiet p daily drawdown input t := by
  obtain ⟨daily', drawdown', hd, hw, hnil⟩ := filterHalfOpenViolations_eq h
  obtain rfl : daily = daily' := Option.some.inj (hdaily.symm.trans hd)
  obtain rfl : drawdown = drawdown' := Option.some.inj (hdrawdown.symm.trans hw)
  have hparts := List.append_eq_nil_iff.mp hnil.symm
  have hloss := List.append_eq_nil_iff.mp hparts.1
  refine ⟨?_, ?_, all, hall, ?_⟩
  · by_contra hgt
    rw [decide_eq_true (Nat.lt_of_not_le hgt)] at hloss
    exact (nomatch hloss.1)
  · by_contra hgt
    rw [decide_eq_true (Nat.lt_of_not_le hgt)] at hloss
    exact (nomatch hloss.2)
  · intro v hv
    have hnot := List.filter_eq_nil_iff.mp hparts.2 v hv
    cases hl : v.isLossLimit with
    | true => rfl
    | false => rw [hl] at hnot; exact absurd rfl hnot

theorem observeHalfOpen_effect (r : TransitionRequest) (hinput : r.input? = some input)
    (hrisk : r.hardRisk = false) (hall : collectViolations p input t = .ok all) (h0 : 0 ≤ t)
    (hn : s.notAfter t) :
    Effect p s r t (observeHalfOpen s all input t) := by
  unfold observeHalfOpen
  split
  case h_1 e he => exact safetyFallback_effect p r t t (filterHalfOpenViolations_error_text he)
  case h_2 vs hvs =>
    split
    case isTrue hnil =>
      subst hnil
      refine .stays rfl rfl fun _ daily drawdown hdaily hdrawdown => ⟨?_, hrisk⟩
      intro input' hinput'
      obtain rfl : input = input' := Option.some.inj (hinput.symm.trans hinput')
      exact quiet_of_filter hall hvs hdaily hdrawdown
    case isFalse hne =>
      exact .opens (openBreaker_opens hne true
        (explains_of_listed (filterHalfOpenViolations_listed hall hvs) hne _) h0 hn)

theorem observe_effect (r : TransitionRequest) (hinput : r.input? = some input)
    (hrisk : r.hardRisk = false) (h0 : 0 ≤ t) (hn : s.notAfter t) :
    Effect p s r t (observe p s input t) := by
  unfold observe
  split
  case h_1 e he => exact safetyFallback_effect p r t t (collectViolations_error_text he)
  case h_2 vs hvs =>
    have hopens : ∀ hne reopened, Opens s (openBreaker s vs hne
        (incidentFingerprint vs (some input)) t reopened) := fun hne reopened =>
      openBreaker_opens hne reopened
        (explains_of_listed (collectViolations_listed hvs) hne _) h0 hn
    dsimp only
    split
    case h_1 hclosed =>
      split
      · refine .stays rfl rfl fun hhalf => ?_
        rw [hclosed] at hhalf
        exact (nomatch hhalf)
      case isFalse hne => exact .opens (hopens hne false)
    case h_2 hhalf => exact observeHalfOpen_effect r hinput hrisk hvs h0 hn
    case h_3 hopen =>
      have hvacuous : s.status = .halfOpen → QuietRequest p s r t := by
        intro hhalf
        rw [hopen] at hhalf
        exact (nomatch hhalf)
      split
      · split
        case isTrue hsome =>
          obtain ⟨fp, hfp⟩ := Option.isSome_iff_exists.mp hsome
          exact .clears fp hopen hfp h0 hn rfl rfl
        · exact .stays rfl rfl hvacuous
      case isFalse hne =>
        split
        · exact .stays rfl rfl hvacuous
        · exact .opens (hopens hne true)

theorem admitHalfOpen_effect (readiness : HalfOpenReadiness) (input : CircuitBreakerInput)
    (violations : List CircuitBreakerViolation) (hopen : s.status = .open) (h0 : 0 ≤ t)
    (hn : s.notAfter t) :
    Effect p s (.enterHalfOpen readiness input) t
      (admitHalfOpen s readiness input violations t) := by
  have hvacuous : s.status = .halfOpen → QuietRequest p s (.enterHalfOpen readiness input) t := by
    intro hhalf
    rw [hopen] at hhalf
    exact (nomatch hhalf)
  unfold admitHalfOpen
  split
  · exact safetyFallback_effect p _ t t rfl
  case h_2 triggeredAtMs htriggered =>
    split
    · exact .stays rfl rfl hvacuous
    case isFalse hepoch =>
      split
      case h_1 e he =>
        exact safetyFallback_effect p _ t t
          (missingPrerequisites_error_text _ (evidence_fields_named readiness) he)
      case h_2 missing hmissing =>
        split
        · exact .stays rfl rfl hvacuous
        case isFalse hnil =>
          rw [not_not.mp hnil] at hmissing
          exact .admits readiness input triggeredAtMs rfl hopen htriggered (not_not.mp hepoch)
            (missingPrerequisites_nil _ hmissing) h0 hn rfl rfl

theorem enterHalfOpen_effect (readiness : HalfOpenReadiness) (input : CircuitBreakerInput)
    (h0 : 0 ≤ t) (hn : s.notAfter t) :
    Effect p s (.enterHalfOpen readiness input) t (enterHalfOpen p s readiness input t) := by
  unfold enterHalfOpen
  split
  case h_1 hclosed =>
    refine .stays rfl rfl fun hhalf => ?_
    rw [hclosed] at hhalf
    exact (nomatch hhalf)
  case h_2 => exact observe_effect _ rfl rfl h0 hn
  case h_3 hopen =>
    split
    case h_1 e he => exact safetyFallback_effect p _ t t (collectViolations_error_text he)
    case h_2 vs hvs =>
      dsimp only
      split
      case isTrue hnew =>
        exact .opens (openBreaker_opens hnew.1 true
          (explains_of_listed (collectViolations_listed hvs) hnew.1 _) h0 hn)
      case isFalse =>
        split
        · refine .stays rfl rfl fun hhalf => ?_
          rw [hopen] at hhalf
          exact (nomatch hhalf)
        · exact admitHalfOpen_effect readiness input vs hopen h0 hn

theorem resetAuthority_named {authorization : ResetAuthorization} {resetBy : String}
    {audit : Option ManualResetAuditRecord}
    (h : resetAuthority p authorization t = .ok (resetBy, audit)) : blank resetBy = false := by
  cases authorization with
  | automatic =>
    unfold resetAuthority at h
    dsimp only at h
    split at h
    · cases h; rfl
    · exact (nomatch h)
  | operator evidence =>
    obtain ⟨⟨⟩, hvalid, hout⟩ := bind_ok.mp h
    rw [← (Prod.mk.inj (pure_ok.mp hout)).1]
    unfold validateManualResetEvidence at hvalid
    split at hvalid
    · exact (nomatch hvalid)
    case h_2 hfind =>
      have hop := List.find?_eq_none.mp hfind ("operator_id", evidence.operatorId)
        (by simp [ManualResetEvidence.fields])
      exact Bool.eq_false_iff.mpr hop

theorem finishClose_effect (r : TransitionRequest) (authorization : ResetAuthorization)
    (hhalf : s.status = .halfOpen) (hquiet : QuietRequest p s r t) (h0 : 0 ≤ t)
    (hn : s.notAfter t) : Effect p s r t (finishClose p s authorization t) := by
  unfold finishClose
  split
  · exact safetyFallback_effect p r t t rfl
  case h_2 halfOpenedAtMs hopened =>
    dsimp only
    split
    · exact .stays rfl rfl fun _ => hquiet
    case isFalse hwait =>
      split
      · exact .stays rfl rfl fun _ => hquiet
      case h_2 resetBy audit hauth =>
        exact .closes halfOpenedAtMs resetBy hhalf hopened (by omega)
          (resetAuthority_named hauth) hquiet h0 hn rfl rfl

theorem close_effect (health : RecoveryHealth) (authorization : ResetAuthorization) (h0 : 0 ≤ t)
    (hn : s.notAfter t) :
    Effect p s (.close health authorization) t (close p s health authorization t) := by
  unfold close
  split
  case h_1 hclosed =>
    refine .stays rfl rfl fun hhalf => ?_
    rw [hclosed] at hhalf
    exact (nomatch hhalf)
  case h_2 hopen =>
    refine .stays rfl rfl fun hhalf => ?_
    rw [hopen] at hhalf
    exact (nomatch hhalf)
  case h_3 hhalf =>
    split
    case h_1 e he =>
      unfold halfOpenViolations at he
      cases hall : collectViolations p health.input t with
      | error e' =>
        rw [hall] at he
        rw [← Except.error.inj he]
        exact safetyFallback_effect p _ t t (collectViolations_error_text hall)
      | ok all =>
        rw [hall] at he
        exact safetyFallback_effect p _ t t (filterHalfOpenViolations_error_text he)
    case h_2 observed hobserved =>
      obtain ⟨all, hall, hfilter⟩ := bind_ok.mp hobserved
      dsimp only
      split
      case isTrue hne =>
        exact .opens (openBreaker_opens hne true (explains_of_listed
          ((filterHalfOpenViolations_listed hall hfilter).push_hardRisk _) hne _) h0 hn)
      case isFalse hnone =>
        obtain ⟨hnil, hrisk⟩ := List.append_eq_nil_iff.mp (not_not.mp hnone)
        have hquiet : QuietRequest p s (.close health authorization) t := by
          intro daily drawdown hdaily hdrawdown
          constructor
          · intro input hinput
            obtain rfl : health.input = input := Option.some.inj hinput
            exact quiet_of_filter hall (hnil ▸ hfilter) hdaily hdrawdown
          · cases hc : health.newHardRiskViolation with
            | false => exact hc
            | true => rw [hc] at hrisk; exact (nomatch hrisk)
        split
        · exact .stays rfl rfl fun _ => hquiet
        · exact finishClose_effect _ authorization hhalf hquiet h0 hn

theorem recordBlockedIntentCount_effect (observedTotal : Nat) :
    Effect p s (.recordBlockedIntentCount observedTotal) t
      (recordBlockedIntentCount s observedTotal) := by
  unfold recordBlockedIntentCount
  split
  · exact .stays rfl rfl fun _ _ _ _ _ => ⟨fun _ h => (nomatch h), rfl⟩
  case isFalse hlt => exact .counts observedTotal rfl (Nat.lt_of_not_le hlt) rfl rfl

theorem dispatch_effect (r : TransitionRequest) (h0 : 0 ≤ t) (hn : s.notAfter t) :
    Effect p s r t (dispatch p s r t) := by
  cases r with
  | observe input => exact observe_effect _ rfl rfl h0 hn
  | enterHalfOpen readiness input => exact enterHalfOpen_effect readiness input h0 hn
  | close health authorization => exact close_effect health authorization h0 hn
  | recordBlockedIntentCount observedTotal => exact recordBlockedIntentCount_effect observedTotal

end

theorem transition_effect (p : CircuitBreakerPolicy) (s : CircuitBreakerState)
    (r : TransitionRequest) (t : Int) : Effect p s r t (transition p s r t) := by
  unfold transition
  split
  · exact safetyFallback_effect p r t t rfl
  case isFalse hneg =>
    have h0 : 0 ≤ t := Int.not_lt.mp hneg
    split
    case h_1 e he => exact safetyFallback_effect p r t t (validate_error_text he)
    case h_2 =>
      split
      case h_1 hlatest => exact dispatch_effect r h0 (notAfter_of_latest_none hlatest t)
      case h_2 latest hlatest =>
        split
        · exact safetyFallback_effect p r t t rfl
        case isFalse hregress =>
          exact dispatch_effect r h0
            (notAfter_mono (notAfter_of_latest hlatest) (Int.not_lt.mp hregress))

end Sinan.Breaker
