import Sinan.Breaker.Invariant

/-!
# Circuit breaker: polling the same fault

An observation is judged three times before it opens anything: by the clock and policy checks of
`transition`, by `collectViolations`, and on a half-open breaker by `filterHalfOpenViolations`.
`found` is the verdict of all three, `heard` of the first two, and `evidence` the fingerprint the
breaker records for it.  `observe_polled` says what one poll does in terms of that fingerprint
alone.

A second poll always meets a breaker that compares with the unfiltered list.  So it starts a second
incident exactly when the first poll had judged differently: the clock or the policy check spoke
otherwise, or the half-open filter had changed the list.
-/

namespace Sinan.Breaker

open Lib CircuitBreakerOutcome

/-! ## what a call finds -/

/-- the checks of `transition` that come before the request -/
def precheck (p : CircuitBreakerPolicy) (s : CircuitBreakerState) (serverNowMs : Int) :
    Except CircuitBreakerError Unit :=
  if serverNowMs < 0 then .error (.invalidInput "server_now_ms" "must not be negative")
  else match p.validate with
    | .error e => .error e
    | .ok () =>
      match s.latestTransitionAtMs with
      | none => .ok ()
      | some latest =>
        if serverNowMs < latest then .error (.serverTimeRegressed latest serverNowMs) else .ok ()

theorem transition_eq (p : CircuitBreakerPolicy) (s : CircuitBreakerState) (r : TransitionRequest)
    (t : Int) :
    transition p s r t = match precheck p s t with
      | .error e => safetyFallback s t e
      | .ok () => dispatch p s r t := by
  unfold transition precheck
  split
  · rfl
  · cases p.validate with
    | error e => rfl
    | ok u =>
      cases s.latestTransitionAtMs with
      | none => rfl
      | some latest =>
        dsimp only
        split <;> rfl

/-- the verdict of a breaker that does not filter -/
def heard (p : CircuitBreakerPolicy) (s : CircuitBreakerState) (input : CircuitBreakerInput)
    (serverNowMs : Int) : Except CircuitBreakerError (List CircuitBreakerViolation) := do
  precheck p s serverNowMs
  collectViolations p input serverNowMs

/-- the verdict of the breaker itself -/
def found (p : CircuitBreakerPolicy) (s : CircuitBreakerState) (input : CircuitBreakerInput)
    (serverNowMs : Int) : Except CircuitBreakerError (List CircuitBreakerViolation) := do
  let all ← heard p s input serverNowMs
  if s.status = .halfOpen then filterHalfOpenViolations s all input else .ok all

/-- the fingerprint of a verdict -/
def evidence (input : CircuitBreakerInput) :
    Except CircuitBreakerError (List CircuitBreakerViolation) → CircuitBreakerIncidentFingerprint
  | .error e => [.safetyInvariantError e]
  | .ok violations => incidentFingerprint violations (some input)

/-- the breaker is open on exactly this evidence -/
def Recorded (s : CircuitBreakerState) (fp : CircuitBreakerIncidentFingerprint) : Prop :=
  s.status = .open ∧ s.lastIncidentFingerprint = some fp

instance (s : CircuitBreakerState) (fp : CircuitBreakerIncidentFingerprint) :
    Decidable (Recorded s fp) :=
  inferInstanceAs (Decidable (_ ∧ _))

section
variable {p : CircuitBreakerPolicy} {s : CircuitBreakerState} {input : CircuitBreakerInput}
  {t t' : Int}

theorem precheck_ok {u : Unit} : precheck p s t = .ok u ↔
    0 ≤ t ∧ p.validate = .ok () ∧ ∀ latest, s.latestTransitionAtMs = some latest → latest ≤ t := by
  unfold precheck
  by_cases hneg : t < 0
  · rw [if_pos hneg]
    exact ⟨fun h => (by cases h), fun h => absurd h.1 (Int.not_le.mpr hneg)⟩
  · rw [if_neg hneg]
    cases p.validate with
    | error e => exact ⟨fun h => (by cases h), fun h => (by cases h.2.1)⟩
    | ok v =>
      cases hlatest : s.latestTransitionAtMs with
      | none => exact ⟨fun _ => ⟨Int.not_lt.mp hneg, rfl, fun _ h => (by cases h)⟩, fun _ => rfl⟩
      | some latest =>
        dsimp only
        by_cases hregress : t < latest
        · rw [if_pos hregress]
          exact ⟨fun h => (by cases h), fun h => absurd (h.2.2 latest rfl) (Int.not_le.mpr hregress)⟩
        · rw [if_neg hregress]
          refine ⟨fun _ => ⟨Int.not_lt.mp hneg, rfl, fun x hx => ?_⟩, fun _ => rfl⟩
          rw [← Option.some.inj hx]
          exact Int.not_lt.mp hregress

theorem precheck_mono (h : precheck p s t = .ok ()) (hle : t ≤ t') : precheck p s t' = .ok () := by
  obtain ⟨h0, hpolicy, hlatest⟩ := precheck_ok.mp h
  exact precheck_ok.mpr
    ⟨Int.le_trans h0 hle, hpolicy, fun latest hx => Int.le_trans (hlatest latest hx) hle⟩

theorem fallbackAtMs_of_precheck (h : precheck p s t = .ok ()) : fallbackAtMs s t = t := by
  obtain ⟨h0, -, hlatest⟩ := precheck_ok.mp h
  unfold fallbackAtMs
  split
  · omega
  case h_2 latest hx =>
    have := hlatest latest hx
    omega

theorem fallbackAtMs_idem (s : CircuitBreakerState) (t : Int) :
    fallbackAtMs s (fallbackAtMs s t) = fallbackAtMs s t := by
  unfold fallbackAtMs
  cases s.latestTransitionAtMs <;> dsimp only <;> omega

theorem fallbackAtMs_mono (s : CircuitBreakerState) (hle : t ≤ t') :
    fallbackAtMs s t ≤ fallbackAtMs s t' := by
  unfold fallbackAtMs
  cases s.latestTransitionAtMs <;> dsimp only <;> omega

theorem evidence_eq_nil {r : Except CircuitBreakerError (List CircuitBreakerViolation)} :
    evidence input r = [] ↔ r = .ok [] := by
  cases r with
  | error e => exact ⟨fun h => (by cases h), fun h => (by cases h)⟩
  | ok vs =>
    constructor
    · intro h
      rw [List.map_eq_nil_iff.mp h]
    · intro h
      rw [Except.ok.inj h]
      rfl

/-! ## one poll -/

/-- what one poll that records `fp` makes of the state -/
inductive Polled (s : CircuitBreakerState) (t : Int) :
    CircuitBreakerIncidentFingerprint → CircuitBreakerState → Prop
  | stays {fp : CircuitBreakerIncidentFingerprint} (known : fp = [] ∨ Recorded s fp) : Polled s t fp s
  | clears (isOpen : s.status = .open) : Polled s t []
      { s with lastIncidentFingerprint := none, incidentEvidenceClearedAtMs := some t }
  | opens {fp : CircuitBreakerIncidentFingerprint} (nonempty : fp ≠ []) (fresh : ¬ Recorded s fp)
      (free : s.recoveryEpoch < u64Max) (reason : CircuitBreakerReason)
      (source : CircuitBreakerTriggerSource) :
      Polled s t fp (incidentState s (s.recoveryEpoch + 1) reason source fp (fallbackAtMs s t))
  | overflows {fp : CircuitBreakerIncidentFingerprint} (nonempty : fp ≠ [])
      (fresh : ¬ Recorded s fp) (exhausted : ¬ s.recoveryEpoch < u64Max) :
      Polled s t fp (recoveryEpochOverflow s t).state

variable {vs : List CircuitBreakerViolation} {fp : CircuitBreakerIncidentFingerprint}

theorem openBreaker_polled (hne : vs ≠ []) (hfp : fp ≠ []) (hfresh : ¬ Recorded s fp)
    (reopened : Bool) :
    Polled s t fp (openBreaker s vs hne fp (fallbackAtMs s t) reopened).state := by
  unfold openBreaker
  split
  case h_1 h =>
    have hstate : (recoveryEpochOverflow s (fallbackAtMs s t)).state
        = (recoveryEpochOverflow s t).state := by
      show incidentState _ _ _ _ _ (fallbackAtMs s (fallbackAtMs s t)) = _
      rw [fallbackAtMs_idem]
      rfl
    rw [hstate]
    exact .overflows hfp hfresh (checkedSucc_none h)
  case h_2 epoch h =>
    obtain ⟨rfl, hlt⟩ := checkedSucc_some h
    exact .opens hfp hfresh hlt _ _

theorem asSafetyFallback_state (o : CircuitBreakerOutcome) (e : CircuitBreakerError) :
    (asSafetyFallback o e).state = o.state := by
  unfold asSafetyFallback
  split <;> rfl

theorem safetyFallback_polled (s : CircuitBreakerState) (t : Int) (e : CircuitBreakerError) :
    Polled s t [.safetyInvariantError e] (safetyFallback s t e).state := by
  have hne : ([.safetyInvariantError e] : CircuitBreakerIncidentFingerprint) ≠ [] :=
    List.cons_ne_nil _ _
  unfold safetyFallback
  dsimp only
  by_cases hopen : s.status = .open
  · rw [if_pos hopen]
    by_cases hfp : s.lastIncidentFingerprint = some [.safetyInvariantError e]
    · rw [if_neg (fun h => h hfp)]
      exact .stays (Or.inr ⟨hopen, hfp⟩)
    · rw [if_pos hfp, asSafetyFallback_state]
      exact openBreaker_polled _ hne (fun h => hfp h.2) true
  · rw [if_neg hopen, asSafetyFallback_state]
    exact openBreaker_polled _ hne (fun h => hopen h.1) _

theorem observe_polled (p : CircuitBreakerPolicy) (s : CircuitBreakerState)
    (input : CircuitBreakerInput) (t : Int) :
    Polled s t (evidence input (found p s input t)) (transition p s (.observe input) t).state := by
  rw [transition_eq]
  unfold found heard
  cases hpre : precheck p s t with
  | error e => exact safetyFallback_polled s t e
  | ok u =>
    show Polled s t (evidence input (collectViolations p input t >>= _)) (observe p s input t).state
    unfold observe
    cases hall : collectViolations p input t with
    | error e => exact safetyFallback_polled s t e
    | ok all =>
      have hopens : ∀ (vs : List CircuitBreakerViolation) (hne : vs ≠ []) (reopened : Bool),
          ¬ Recorded s (incidentFingerprint vs (some input)) →
          Polled s t (incidentFingerprint vs (some input))
            (openBreaker s vs hne (incidentFingerprint vs (some input)) t reopened).state := by
        intro vs hne reopened hfresh
        have hfp : incidentFingerprint vs (some input) ≠ [] :=
          fun h => hne (List.map_eq_nil_iff.mp h)
        have hpolled := openBreaker_polled (t := t) hne hfp hfresh reopened
        rwa [fallbackAtMs_of_precheck hpre] at hpolled
      obtain ⟨fp, hfp⟩ : ∃ fp, fp = evidence input (if s.status = .halfOpen then
        filterHalfOpenViolations s all input else .ok all) := ⟨_, rfl⟩
      show Polled s t (evidence input (if s.status = .halfOpen then
        filterHalfOpenViolations s all input else .ok all)) _
      rw [← hfp]
      dsimp only
      split
      case h_1 hclosed =>
        rw [hclosed, if_neg (by decide)] at hfp
        subst hfp
        split
        case isTrue hnil =>
          subst hnil
          exact .stays (Or.inl rfl)
        case isFalse hne =>
          refine hopens all hne false fun h => ?_
          rw [h.1] at hclosed
          cases hclosed
      case h_2 hhalf =>
        rw [if_pos hhalf] at hfp
        subst hfp
        unfold observeHalfOpen
        cases hfilter : filterHalfOpenViolations s all input with
        | error e => exact safetyFallback_polled s t e
        | ok vs =>
          dsimp only
          by_cases hnil : vs = []
          · subst hnil
            exact .stays (Or.inl rfl)
          · rw [dif_neg hnil]
            refine hopens vs hnil true fun h => ?_
            rw [h.1] at hhalf
            cases hhalf
      case h_3 hopen =>
        rw [hopen, if_neg (by decide)] at hfp
        subst hfp
        split
        case isTrue hnil =>
          subst hnil
          split
          · exact .clears hopen
          · exact .stays (Or.inl rfl)
        case isFalse hne =>
          split
          case isTrue hfp => exact .stays (Or.inr ⟨hopen, hfp⟩)
          case isFalse hfp => exact hopens all hne true fun h => hfp h.2

/-! ## the second poll -/

/-- epoch and trigger are those of `s` -/
def Kept (s s' : CircuitBreakerState) : Prop :=
  s'.recoveryEpoch = s.recoveryEpoch ∧ s'.triggeredAtMs = s.triggeredAtMs

theorem kept_refl (s : CircuitBreakerState) : Kept s s := ⟨rfl, rfl⟩

variable {s₁ : CircuitBreakerState}

theorem Polled.quiet (h : Polled s t [] s₁) : Kept s s₁ := by
  cases h with
  | stays known => exact kept_refl s
  | clears isOpen => exact kept_refl s
  | opens nonempty fresh free reason source => exact absurd rfl nonempty
  | overflows nonempty fresh exhausted => exact absurd rfl nonempty

/-- a poll that finds something keeps the incident when it is already the one on record; otherwise
only an exhausted epoch and a trigger that happens to carry the same time hide that it opens -/
theorem Polled.kept_iff (h : Polled s t fp s₁) (hne : fp ≠ []) :
    Kept s s₁ ↔ Recorded s fp ∨
      ¬ s.recoveryEpoch < u64Max ∧ s.triggeredAtMs = some (fallbackAtMs s t) := by
  cases h with
  | stays known =>
    have hrecorded : Recorded s fp := known.resolve_left hne
    exact ⟨fun _ => Or.inl hrecorded, fun _ => kept_refl s⟩
  | clears isOpen => exact absurd rfl hne
  | opens nonempty fresh free reason source =>
    constructor
    · intro hkept
      have hepoch : s.recoveryEpoch + 1 = s.recoveryEpoch := hkept.1
      exact absurd hepoch (Nat.succ_ne_self _)
    · rintro (hrecorded | ⟨hfull, -⟩)
      · exact absurd hrecorded fresh
      · exact absurd free hfull
  | overflows nonempty fresh exhausted =>
    constructor
    · intro hkept
      exact Or.inr ⟨exhausted, hkept.2.symm⟩
    · rintro (hrecorded | ⟨-, hat⟩)
      · exact absurd hrecorded fresh
      · exact ⟨rfl, hat.symm⟩

theorem precheck_incidentState (hle : t ≤ t') (epoch : Nat) (reason : CircuitBreakerReason)
    (source : CircuitBreakerTriggerSource) (fp : CircuitBreakerIncidentFingerprint) :
    precheck p (incidentState s epoch reason source fp (fallbackAtMs s t)) t' = precheck p s t' := by
  unfold precheck
  by_cases hneg : t' < 0
  · rw [if_pos hneg, if_pos hneg]
  · rw [if_neg hneg, if_neg hneg]
    have hat : (incidentState s epoch reason source fp (fallbackAtMs s t)).latestTransitionAtMs
        = some (fallbackAtMs s t) := rfl
    rw [hat]
    unfold fallbackAtMs
    cases p.validate with
    | error e => rfl
    | ok u =>
      cases s.latestTransitionAtMs with
      | none =>
        have hnot : ¬ t' < max t 0 := by omega
        dsimp only
        rw [if_neg hnot]
      | some latest =>
        dsimp only
        by_cases hregress : t' < latest
        · have hmax : max latest (max t 0) = latest := by omega
          rw [hmax]
        · have hnot : ¬ t' < max latest (max t 0) := by omega
          rw [if_neg hregress, if_neg hnot]

theorem found_of_unfiltered (h : s.status ≠ .halfOpen) : found p s input t = heard p s input t := by
  unfold found
  cases heard p s input t with
  | error e => rfl
  | ok all => exact if_neg h

theorem Polled.found_next (h : Polled s t fp s₁) (hne : fp ≠ []) (hle : t ≤ t') :
    found p s₁ input t' = heard p s input t' := by
  have hincident : ∀ epoch reason source fp', s₁ =
      incidentState s epoch reason source fp' (fallbackAtMs s t) →
      found p s₁ input t' = heard p s input t' := by
    intro epoch reason source fp' hs
    subst hs
    have hopen : (incidentState s epoch reason source fp' (fallbackAtMs s t)).status ≠ .halfOpen := by
      intro h
      cases h
    rw [found_of_unfiltered hopen]
    unfold heard
    rw [precheck_incidentState hle]
  cases h with
  | stays known =>
    have hopen : s.status = .open := (known.resolve_left hne).1
    exact found_of_unfiltered (by rw [hopen]; decide)
  | clears isOpen => exact absurd rfl hne
  | opens nonempty fresh free reason source => exact hincident _ _ _ _ rfl
  | overflows nonempty fresh exhausted => exact hincident _ _ _ _ rfl

/-- the epoch is so far up that the second incident shows neither in it nor in the trigger -/
def Exhausted (s : CircuitBreakerState) (fp : CircuitBreakerIncidentFingerprint) (t t' : Int) :
    Prop :=
  if Recorded s fp then
    ¬ s.recoveryEpoch < u64Max ∧ s.triggeredAtMs = some (fallbackAtMs s t')
  else ¬ s.recoveryEpoch + 1 < u64Max ∧ fallbackAtMs s t' = fallbackAtMs s t

theorem Polled.second_kept_iff {fp' : CircuitBreakerIncidentFingerprint} {s₂ : CircuitBreakerState}
    (h : Polled s t fp s₁) (hne : fp ≠ []) (h' : Polled s₁ t' fp' s₂) (hne' : fp' ≠ [])
    (hle : t ≤ t') (herror : fp' ≠ [.safetyInvariantError .recoveryEpochOverflow]) :
    Kept s₁ s₂ ↔ fp = fp' ∧ (Recorded s fp ∨ s.recoveryEpoch < u64Max) ∨ Exhausted s fp t t' := by
  rw [h'.kept_iff hne']
  unfold Exhausted
  have hmono := fallbackAtMs_mono s hle
  have hnonneg := fallbackAtMs_nonneg s t
  -- the trigger of a fresh incident is the earliest time of any later fallback
  have hlater : max (fallbackAtMs s t) (max t' 0) = fallbackAtMs s t' := by
    unfold fallbackAtMs at *
    cases hlatest : s.latestTransitionAtMs <;> rw [hlatest] at hmono <;> dsimp only at * <;> omega
  cases h with
  | stays known =>
    have hrecorded : Recorded s fp := known.resolve_left hne
    have hsame : Recorded s fp' ↔ fp = fp' := by
      constructor
      · intro hr
        exact Option.some.inj (hrecorded.2.symm.trans hr.2)
      · rintro rfl
        exact hrecorded
    rw [if_pos hrecorded, hsame]
    exact ⟨Or.imp_left fun h => ⟨h, Or.inl hrecorded⟩, Or.imp_left And.left⟩
  | clears isOpen => exact absurd rfl hne
  | opens nonempty fresh free reason source =>
    rw [if_neg fresh]
    have hsame : Recorded (incidentState s (s.recoveryEpoch + 1) reason source fp
        (fallbackAtMs s t)) fp' ↔ fp = fp' := by
      constructor
      · intro hr
        exact Option.some.inj hr.2
      · rintro rfl
        exact ⟨rfl, rfl⟩
    rw [hsame]
    show fp = fp' ∨ ¬ s.recoveryEpoch + 1 < u64Max ∧ some (fallbackAtMs s t)
      = some (max (fallbackAtMs s t) (max t' 0)) ↔ _
    rw [hlater, Option.some.injEq, eq_comm (a := fallbackAtMs s t)]
    exact ⟨Or.imp_left fun h => ⟨h, Or.inr free⟩, Or.imp_left And.left⟩
  | overflows nonempty fresh exhausted =>
    rw [if_neg fresh]
    have hother : ¬ Recorded (recoveryEpochOverflow s t).state fp' := by
      intro hr
      exact herror (Option.some.inj hr.2).symm
    show _ ∨ ¬ s.recoveryEpoch < u64Max ∧ some (fallbackAtMs s t)
      = some (max (fallbackAtMs s t) (max t' 0)) ↔ _
    rw [hlater, Option.some.injEq]
    constructor
    · rintro (hr | ⟨-, hat⟩)
      · exact absurd hr hother
      · exact Or.inr ⟨by omega, hat.symm⟩
    · rintro (⟨-, hr | hfree⟩ | ⟨-, hat⟩)
      · exact absurd hr fresh
      · exact absurd hfree exhausted
      · exact Or.inr ⟨exhausted, hat.symm⟩

/-! ## the errors of the checks -/

variable {e : CircuitBreakerError}

theorem precheck_error (h : precheck p s t = .error e) :
    e ≠ .recoveryEpochOverflow ∧
      ∀ field requirement, e = .invalidInput field requirement → field = "server_now_ms" := by
  unfold precheck at h
  split at h
  · rw [← Except.error.inj h]
    refine ⟨fun h => (by cases h), fun field requirement hfield => ?_⟩
    exact (CircuitBreakerError.invalidInput.inj hfield).1.symm
  · split at h
    case h_1 e' he =>
      rw [← Except.error.inj h]
      unfold CircuitBreakerPolicy.validate at he
      split at he
      · rw [← Except.error.inj he]
        exact ⟨fun h => (by cases h), fun _ _ h => (by cases h)⟩
      · split at he
        · rw [← Except.error.inj he]
          exact ⟨fun h => (by cases h), fun _ _ h => (by cases h)⟩
        · cases he
    case h_2 =>
      split at h
      · cases h
      · split at h
        · rw [← Except.error.inj h]
          exact ⟨fun h => (by cases h), fun _ _ h => (by cases h)⟩
        · cases h

theorem validateNonBlank_error {field value : String} (h : validateNonBlank field value = .error e) :
    ∃ requirement, e = .invalidInput field requirement := by
  unfold validateNonBlank at h
  split at h
  · exact ⟨_, (Except.error.inj h).symm⟩
  · cases h

theorem collectViolations_error (h : collectViolations p input t = .error e) :
    ∃ field requirement, e = .invalidInput field requirement ∧ field ≠ "server_now_ms" := by
  unfold collectViolations at h
  cases hmanual : validateManualTrigger input.manualTrigger with
  | error e' =>
    rw [hmanual] at h
    obtain rfl : e' = e := Except.error.inj h
    cases htrigger : input.manualTrigger with
    | none =>
      rw [htrigger] at hmanual
      cases hmanual
    | some trigger =>
      rw [htrigger] at hmanual
      simp only [validateManualTrigger] at hmanual
      cases hoperator : validateNonBlank "manual_trigger.operator_id" trigger.operatorId with
      | error e'' =>
        rw [hoperator] at hmanual
        obtain rfl : e'' = e' := Except.error.inj hmanual
        obtain ⟨requirement, rfl⟩ := validateNonBlank_error hoperator
        exact ⟨_, _, rfl, by decide⟩
      | ok u =>
        rw [hoperator] at hmanual
        obtain ⟨requirement, rfl⟩ := validateNonBlank_error hmanual
        exact ⟨_, _, rfl, by decide⟩
  | ok u =>
    rw [hmanual] at h
    cases htime : timeSyncViolations p input.timeSyncUnhealthySinceMs t with
    | error e' =>
      rw [htime] at h
      obtain rfl : e' = e := Except.error.inj h
      unfold timeSyncViolations at htime
      split at htime
      · cases htime
      · split at htime
        · exact ⟨_, _, (Except.error.inj htime).symm, by decide⟩
        · split at htime
          · exact ⟨_, _, (Except.error.inj htime).symm, by decide⟩
          · cases htime
    | ok timeSync =>
      rw [htime] at h
      cases h

theorem incidentFingerprint_no_error (vs : List CircuitBreakerViolation)
    (input : Option CircuitBreakerInput) (e : CircuitBreakerError) :
    incidentFingerprint vs input ≠ [.safetyInvariantError e] := by
  intro h
  cases vs with
  | nil => cases h
  | cons v vs =>
    have hhead : incidentEvidence input v = .safetyInvariantError e := (List.cons.inj h).1
    cases v <;> cases hhead

theorem evidence_heard_no_overflow :
    evidence input (heard p s input t) ≠ [.safetyInvariantError .recoveryEpochOverflow] := by
  unfold heard
  cases hpre : precheck p s t with
  | error e =>
    intro h
    exact (precheck_error hpre).1 (CircuitBreakerIncidentEvidence.safetyInvariantError.inj
      (List.cons.inj h).1)
  | ok u =>
    show evidence input (collectViolations p input t) ≠ _
    cases hall : collectViolations p input t with
    | error e =>
      obtain ⟨field, requirement, rfl, -⟩ := collectViolations_error hall
      intro h
      cases (CircuitBreakerIncidentEvidence.safetyInvariantError.inj (List.cons.inj h).1)
    | ok all => exact incidentFingerprint_no_error all (some input) _

/-! ## the same fault -/

/-- the violation without the growing duration of a clock fault -/
def CircuitBreakerViolation.undated : CircuitBreakerViolation → CircuitBreakerViolation
  | .timeSyncUnhealthy _ thresholdMs => .timeSyncUnhealthy 0 thresholdMs
  | v => v

theorem incidentEvidence_undated (input : Option CircuitBreakerInput)
    (v : CircuitBreakerViolation) :
    incidentEvidence input v.undated = incidentEvidence input v := by
  cases v <;> rfl

theorem isLossLimit_undated (v : CircuitBreakerViolation) :
    v.undated.isLossLimit = v.isLossLimit := by
  cases v <;> rfl

/-- `collectViolations` gives the same at both times, up to the growing duration -/
def SameFault (p : CircuitBreakerPolicy) (input : CircuitBreakerInput) (t t' : Int) : Prop :=
  (collectViolations p input t).map (List.map CircuitBreakerViolation.undated)
    = (collectViolations p input t').map (List.map CircuitBreakerViolation.undated)

theorem SameFault.ok (h : SameFault p input t t') (hvs : collectViolations p input t = .ok vs) :
    ∃ vs', collectViolations p input t' = .ok vs' ∧
      vs.map CircuitBreakerViolation.undated = vs'.map CircuitBreakerViolation.undated := by
  unfold SameFault at h
  rw [hvs] at h
  cases hvs' : collectViolations p input t' with
  | error e =>
    rw [hvs'] at h
    cases h
  | ok vs' =>
    rw [hvs'] at h
    exact ⟨vs', rfl, Except.ok.inj h⟩

theorem SameFault.error (h : SameFault p input t t') (he : collectViolations p input t = .error e) :
    collectViolations p input t' = .error e := by
  unfold SameFault at h
  rw [he] at h
  cases hvs' : collectViolations p input t' with
  | error e' =>
    rw [hvs'] at h
    obtain rfl : e = e' := Except.error.inj h
    rfl
  | ok vs' =>
    rw [hvs'] at h
    cases h

theorem incidentFingerprint_undated {vs' : List CircuitBreakerViolation}
    (h : vs.map CircuitBreakerViolation.undated = vs'.map CircuitBreakerViolation.undated)
    (input : Option CircuitBreakerInput) :
    incidentFingerprint vs input = incidentFingerprint vs' input := by
  have hundated : ∀ ws : List CircuitBreakerViolation, incidentFingerprint ws input
      = (ws.map CircuitBreakerViolation.undated).map (incidentEvidence input) := by
    intro ws
    rw [List.map_map]
    exact List.map_congr_left fun v _ => (incidentEvidence_undated input v).symm
  rw [hundated vs, hundated vs', h]

/-! ## the half-open list beside the full list -/

/-- both baselines are set, and each loss has reached its limit exactly when it is above its
baseline -/
def LossesAgree (p : CircuitBreakerPolicy) (s : CircuitBreakerState)
    (input : CircuitBreakerInput) : Prop :=
  ∃ daily drawdown, s.halfOpenDailyLossBaselineBps = some daily ∧
    s.halfOpenDrawdownBaselineBps = some drawdown ∧
    (daily < input.dailyRealizedLossBps ↔ p.maxDailyRealizedLossBps ≤ input.dailyRealizedLossBps) ∧
    (drawdown < input.equityDrawdownBps ↔ p.maxEquityDrawdownBps ≤ input.equityDrawdownBps)

variable {v : CircuitBreakerViolation} {q : CircuitBreakerViolation → Bool}

/-- two lists with at most one violation in the first and in the second place agree in the
fingerprint only when the same places are taken -/
theorem places_of_fingerprint {c d c' d' : Bool} {v' w w' : CircuitBreakerViolation}
    {rest : List CircuitBreakerViolation} (hv : v.rank = 0) (hv' : v'.rank = 0) (hw : w.rank = 1)
    (hw' : w'.rank = 1) (hrest : ∀ x ∈ rest, 2 ≤ x.rank)
    (h : (pushIf c v ++ (pushIf d w ++ rest)).map CircuitBreakerViolation.rank
      = (pushIf c' v' ++ (pushIf d' w' ++ rest)).map CircuitBreakerViolation.rank) :
    c = c' ∧ d = d' := by
  have hzero : ∀ (c d : Bool) (v w : CircuitBreakerViolation), v.rank = 0 → w.rank = 1 →
      ((0 ∈ (pushIf c v ++ (pushIf d w ++ rest)).map CircuitBreakerViolation.rank ↔ c = true) ∧
        (1 ∈ (pushIf c v ++ (pushIf d w ++ rest)).map CircuitBreakerViolation.rank ↔ d = true)) := by
    intro c d v w hv hw
    have hlow : ∀ k, k < 2 → k ∉ rest.map CircuitBreakerViolation.rank := by
      intro k hk hmem
      obtain ⟨x, hx, rfl⟩ := List.mem_map.mp hmem
      exact absurd (hrest x hx) (Nat.not_le.mpr hk)
    have h0 := hlow 0 (by omega)
    have h1 := hlow 1 (by omega)
    cases c <;> cases d <;> simp [pushIf, hv, hw, -List.mem_map, h0, h1]
  obtain ⟨hc, hd⟩ := hzero c d v w hv hw
  obtain ⟨hc', hd'⟩ := hzero c' d' v' w' hv' hw'
  rw [h] at hc hd
  exact ⟨Bool.eq_iff_iff.mpr (hc.symm.trans hc'), Bool.eq_iff_iff.mpr (hd.symm.trans hd')⟩

theorem incidentFingerprint_ranks (vs : List CircuitBreakerViolation)
    (input : Option CircuitBreakerInput) :
    (incidentFingerprint vs input).map CircuitBreakerIncidentEvidence.rank
      = vs.map CircuitBreakerViolation.rank := by
  unfold incidentFingerprint
  rw [List.map_map]
  exact List.map_congr_left fun v _ => incidentEvidence_rank input v

theorem find_pushIf (hv : q v = true) (rest : List CircuitBreakerViolation) :
    (pushIf true v ++ rest).find? q = some v :=
  List.find?_cons_of_pos hv

theorem find_pushIf_skip (hv : q v = false) (c : Bool) (rest : List CircuitBreakerViolation) :
    (pushIf c v ++ rest).find? q = rest.find? q := by
  cases c with
  | false => rfl
  | true => exact List.find?_cons_of_neg (by rw [hv]; exact Bool.false_ne_true)

theorem pushIf_found {c d : Prop} [Decidable c] [Decidable d] (hcd : c ↔ d)
    {l : List CircuitBreakerViolation} {w : CircuitBreakerViolation}
    (hfind : d → l.find? q = some v) :
    pushIf c ((l.find? q).getD w) = pushIf d v := by
  by_cases hc : c
  · have hd : d := hcd.mp hc
    rw [decide_eq_true hc, decide_eq_true hd, hfind hd]
    rfl
  · have hd : ¬ d := fun hd => hc (hcd.mpr hd)
    rw [decide_eq_false hc, decide_eq_false hd]
    rfl

theorem filter_evidence_iff (hvs : collectViolations p input t = .ok vs) :
    evidence input (filterHalfOpenViolations s vs input) = incidentFingerprint vs (some input) ↔
      LossesAgree p s input := by
  cases hfilter : filterHalfOpenViolations s vs input with
  | error e =>
    constructor
    · intro h
      exact absurd h.symm (incidentFingerprint_no_error vs (some input) e)
    · rintro ⟨daily, drawdown, hdaily, hdrawdown, -⟩
      unfold filterHalfOpenViolations at hfilter
      rw [hdaily, hdrawdown] at hfilter
      cases hfilter
  | ok found =>
    obtain ⟨daily, drawdown, hdaily, hdrawdown, rfl⟩ := filterHalfOpenViolations_eq hfilter
    obtain ⟨timeSync, hmanual, htime, hlist⟩ := collectViolations_eq hvs
    have hops : vs.filter (fun v => !v.isLossLimit) = operationalViolations p input timeSync := by
      obtain ⟨timeSync', htime', hops⟩ := collectViolations_filter hvs
      rw [htime] at htime'
      rw [hops, Except.ok.inj htime']
    rw [hops, List.append_assoc]
    constructor
    · intro h
      have hranks := congrArg (List.map CircuitBreakerIncidentEvidence.rank) h
      rw [hlist] at hranks
      unfold evidence at hranks
      rw [incidentFingerprint_ranks, incidentFingerprint_ranks] at hranks
      have hrest : ∀ x ∈ operationalViolations p input timeSync, 2 ≤ x.rank := by
        intro x hx
        have hmem := (operationalViolations_ranks htime).subset (List.mem_map_of_mem hx)
        simp only [List.mem_cons, List.not_mem_nil, or_false] at hmem
        omega
      obtain ⟨hc, hd⟩ := places_of_fingerprint (find_daily _ _ _).1 rfl (find_drawdown _ _ _).1 rfl
        hrest hranks
      exact ⟨daily, drawdown, hdaily, hdrawdown, decide_eq_decide.mp hc, decide_eq_decide.mp hd⟩
    · rintro ⟨daily', drawdown', hdaily', hdrawdown', hc, hd⟩
      obtain rfl : daily = daily' := Option.some.inj (hdaily.symm.trans hdaily')
      obtain rfl : drawdown = drawdown' := Option.some.inj (hdrawdown.symm.trans hdrawdown')
      have hdailyPart := pushIf_found hc (w := .dailyRealizedLossWorsened daily
        input.dailyRealizedLossBps) (l := vs) (q := CircuitBreakerViolation.isDailyRealizedLoss)
        (v := .dailyRealizedLoss input.dailyRealizedLossBps p.maxDailyRealizedLossBps) (by
          intro hd
          rw [hlist, decide_eq_true hd]
          exact find_pushIf rfl _)
      have hdrawdownPart := pushIf_found hd (w := .equityDrawdownWorsened drawdown
        input.equityDrawdownBps) (l := vs) (q := CircuitBreakerViolation.isEquityDrawdown)
        (v := .equityDrawdown input.equityDrawdownBps p.maxEquityDrawdownBps) (by
          intro hd
          rw [hlist, find_pushIf_skip rfl, decide_eq_true hd]
          exact find_pushIf rfl _)
      unfold evidence
      rw [hdailyPart, hdrawdownPart, ← hlist]

theorem pushIf_eq_nil {c : Bool} : pushIf c v = [] ↔ c = false := by
  cases c with
  | false => exact ⟨fun _ => rfl, fun _ => rfl⟩
  | true => exact ⟨fun h => (by cases h), fun h => (by cases h)⟩

/-- the filter drops everything exactly when no loss is above its baseline and nothing but loss
limits was collected -/
theorem filterHalfOpenViolations_nil {all : List CircuitBreakerViolation} :
    filterHalfOpenViolations s all input = .ok [] ↔
      ∃ daily drawdown, s.halfOpenDailyLossBaselineBps = some daily ∧
        s.halfOpenDrawdownBaselineBps = some drawdown ∧ ¬ daily < input.dailyRealizedLossBps ∧
        ¬ drawdown < input.equityDrawdownBps ∧ ∀ v ∈ all, v.isLossLimit = true := by
  have hlosses : ∀ daily drawdown, pushIf (input.dailyRealizedLossBps > daily)
        ((all.find? CircuitBreakerViolation.isDailyRealizedLoss).getD
          (.dailyRealizedLossWorsened daily input.dailyRealizedLossBps))
      ++ pushIf (input.equityDrawdownBps > drawdown)
        ((all.find? CircuitBreakerViolation.isEquityDrawdown).getD
          (.equityDrawdownWorsened drawdown input.equityDrawdownBps))
      ++ all.filter (fun v => !v.isLossLimit) = [] ↔
      ¬ daily < input.dailyRealizedLossBps ∧ ¬ drawdown < input.equityDrawdownBps ∧
        ∀ v ∈ all, v.isLossLimit = true := by
    intro daily drawdown
    rw [List.append_eq_nil_iff, List.append_eq_nil_iff, pushIf_eq_nil, pushIf_eq_nil,
      decide_eq_false_iff_not, decide_eq_false_iff_not, List.filter_eq_nil_iff, and_assoc]
    simp only [Bool.not_eq_true, Bool.not_eq_false', gt_iff_lt]
  constructor
  · intro h
    obtain ⟨daily, drawdown, hdaily, hdrawdown, hnil⟩ := filterHalfOpenViolations_eq h
    exact ⟨daily, drawdown, hdaily, hdrawdown, (hlosses daily drawdown).mp hnil.symm⟩
  · rintro ⟨daily, drawdown, hdaily, hdrawdown, hquiet⟩
    unfold filterHalfOpenViolations
    rw [hdaily, hdrawdown]
    exact congrArg Except.ok ((hlosses daily drawdown).mpr hquiet)

/-! ## one fault, one incident -/

theorem found_nil_later (h : found p s input t = .ok []) (hsame : SameFault p input t t')
    (hle : t ≤ t') : found p s input t' = .ok [] := by
  obtain ⟨all, hheard, hverdict⟩ := bind_ok.mp h
  obtain ⟨⟨⟩, hpre, hall⟩ := bind_ok.mp hheard
  obtain ⟨all', hall', hundated⟩ := hsame.ok hall
  refine bind_ok.mpr ⟨all', bind_ok.mpr ⟨(), precheck_mono hpre hle, hall'⟩, ?_⟩
  by_cases hhalf : s.status = .halfOpen
  · rw [if_pos hhalf] at hverdict ⊢
    obtain ⟨daily, drawdown, hdaily, hdrawdown, hd, hw, hlosses⟩ :=
      filterHalfOpenViolations_nil.mp hverdict
    refine filterHalfOpenViolations_nil.mpr ⟨daily, drawdown, hdaily, hdrawdown, hd, hw, ?_⟩
    intro v hv
    have hmem : v.undated ∈ all.map CircuitBreakerViolation.undated := by
      rw [hundated]
      exact List.mem_map_of_mem hv
    obtain ⟨w, hwmem, hwv⟩ := List.mem_map.mp hmem
    rw [← isLossLimit_undated v, ← hwv, isLossLimit_undated]
    exact hlosses w hwmem
  · rw [if_neg hhalf] at hverdict ⊢
    obtain rfl : all = [] := Except.ok.inj hverdict
    rw [List.map_eq_nil_iff.mp hundated.symm]

theorem Polled.found_nil_next (h : Polled s t [] s₁) (hfound : found p s input t = .ok [])
    (hsame : SameFault p input t t') (hle : t ≤ t') :
    found p s₁ input t' = .ok [] := by
  cases h with
  | stays known => exact found_nil_later hfound hsame hle
  | opens nonempty fresh free reason source => exact absurd rfl nonempty
  | overflows nonempty fresh exhausted => exact absurd rfl nonempty
  | clears isOpen =>
    have hunfiltered : s.status ≠ .halfOpen := by
      rw [isOpen]
      decide
    have hlater := found_nil_later hfound hsame hle
    rw [found_of_unfiltered hunfiltered] at hfound hlater
    obtain ⟨⟨⟩, hpre, -⟩ := bind_ok.mp hfound
    obtain ⟨⟨⟩, -, hall⟩ := bind_ok.mp hlater
    refine (found_of_unfiltered ?_).trans (bind_ok.mpr ⟨(), precheck_ok.mpr ?_, hall⟩)
    · exact hunfiltered
    obtain ⟨h0, hpolicy, hlatest⟩ := precheck_ok.mp hpre
    refine ⟨Int.le_trans h0 hle, hpolicy, fun latest hx => ?_⟩
    have hold : s.notAfter t := by
      cases hs : s.latestTransitionAtMs with
      | none => exact notAfter_of_latest_none hs t
      | some x => exact notAfter_mono (notAfter_of_latest hs) (hlatest x hs)
    have hnew : ∀ x ∈ CircuitBreakerState.timestamps { s with
        lastIncidentFingerprint := none, incidentEvidenceClearedAtMs := some t }, x ≤ t := by
      obtain ⟨htriggered, -, hhalf, hreset⟩ := forall_timestamps.mp hold
      exact forall_timestamps.mpr
        ⟨htriggered, fun x hx => Int.le_of_eq (Option.some.inj hx).symm, hhalf, hreset⟩
    exact Int.le_trans (hnew latest (List.max?_eq_some_iff.mp hx).1) hle

/-- the two polls are judged alike: by the clock and the policy, and by the half-open filter -/
def SameVerdict (p : CircuitBreakerPolicy) (s : CircuitBreakerState)
    (input : CircuitBreakerInput) (t t' : Int) : Prop :=
  precheck p s t = precheck p s t' ∧
    (precheck p s t = .ok () → s.status = .halfOpen →
      (∃ e, collectViolations p input t = .error e) ∨ LossesAgree p s input)

theorem sameVerdict_iff (hsame : SameFault p input t t') (hle : t ≤ t') :
    evidence input (found p s input t) = evidence input (heard p s input t') ↔
      SameVerdict p s input t t' := by
  unfold SameVerdict found heard
  cases hpre : precheck p s t with
  | error e =>
    show [CircuitBreakerIncidentEvidence.safetyInvariantError e]
      = evidence input (precheck p s t' >>= fun _ => collectViolations p input t') ↔ _
    cases hpre' : precheck p s t' with
    | error e' =>
      constructor
      · intro h
        rw [CircuitBreakerIncidentEvidence.safetyInvariantError.inj (List.cons.inj h).1]
        exact ⟨rfl, fun h => (by cases h)⟩
      · rintro ⟨h, -⟩
        rw [Except.error.inj h]
        rfl
    | ok u =>
      refine ⟨fun h => ?_, fun h => (by cases h.1)⟩
      cases hall : collectViolations p input t' with
      | error e' =>
        rw [hall] at h
        obtain ⟨field, requirement, rfl, hfield⟩ := collectViolations_error hall
        have he := CircuitBreakerIncidentEvidence.safetyInvariantError.inj (List.cons.inj h).1
        exact absurd ((precheck_error hpre).2 field requirement he) hfield
      | ok all =>
        rw [hall] at h
        exact absurd h.symm (incidentFingerprint_no_error all (some input) e)
  | ok u =>
    rw [precheck_mono hpre hle]
    show evidence input (collectViolations p input t >>= _)
      = evidence input (collectViolations p input t') ↔ _
    cases hall : collectViolations p input t with
    | error e =>
      rw [hsame.error hall]
      exact ⟨fun _ => ⟨rfl, fun _ _ => Or.inl ⟨e, rfl⟩⟩, fun _ => rfl⟩
    | ok all =>
      obtain ⟨all', hall', hundated⟩ := hsame.ok hall
      rw [hall']
      show evidence input (if s.status = .halfOpen then filterHalfOpenViolations s all input
        else .ok all) = incidentFingerprint all' (some input) ↔ _
      rw [← incidentFingerprint_undated hundated]
      by_cases hhalf : s.status = .halfOpen
      · rw [if_pos hhalf, filter_evidence_iff hall]
        constructor
        · intro h
          exact ⟨rfl, fun _ _ => Or.inr h⟩
        · rintro ⟨-, h⟩
          exact (h rfl hhalf).resolve_left (by rintro ⟨_, h⟩; cases h)
      · rw [if_neg hhalf]
        exact ⟨fun _ => ⟨rfl, fun _ h => absurd h hhalf⟩, fun _ => rfl⟩

end

/-- the state after one observation -/
def observed (p : CircuitBreakerPolicy) (s : CircuitBreakerState) (input : CircuitBreakerInput)
    (serverNowMs : Int) : CircuitBreakerState :=
  (transition p s (.observe input) serverNowMs).state

/-- the breaker takes two polls of the fault for one incident: one of them finds nothing, or both
are judged alike and the first is not lost to an exhausted epoch, or the epoch is exhausted and the
clock of the trigger stands still -/
def OneIncident (p : CircuitBreakerPolicy) (s : CircuitBreakerState)
    (input : CircuitBreakerInput) (t t' : Int) : Prop :=
  found p s input t = .ok [] ∨ heard p s input t' = .ok [] ∨
    (SameVerdict p s input t t' ∧
      (Recorded s (evidence input (found p s input t)) ∨ s.recoveryEpoch < u64Max)) ∨
    Exhausted s (evidence input (found p s input t)) t t'

/-- a second poll of the same fault keeps epoch and trigger of the first exactly under
`OneIncident` -/
theorem second_observation_kept_iff (p : CircuitBreakerPolicy) (s : CircuitBreakerState)
    (input : CircuitBreakerInput) {t t' : Int} (hle : t ≤ t') (hsame : SameFault p input t t') :
    Kept (observed p s input t) (observed p (observed p s input t) input t') ↔
      OneIncident p s input t t' := by
  have hfirst : Polled s t _ (observed p s input t) := observe_polled p s input t
  have hsecond : Polled _ t' _ (observed p (observed p s input t) input t') :=
    observe_polled p (observed p s input t) input t'
  by_cases hnil : found p s input t = .ok []
  · refine ⟨fun _ => Or.inl hnil, fun _ => ?_⟩
    rw [hnil] at hfirst
    rw [hfirst.found_nil_next hnil hsame hle] at hsecond
    exact hsecond.quiet
  · have hne : evidence input (found p s input t) ≠ [] := fun h => hnil (evidence_eq_nil.mp h)
    rw [hfirst.found_next hne hle] at hsecond
    by_cases hnil' : heard p s input t' = .ok []
    · refine ⟨fun _ => Or.inr (Or.inl hnil'), fun _ => ?_⟩
      rw [hnil'] at hsecond
      exact hsecond.quiet
    · have hne' : evidence input (heard p s input t') ≠ [] := fun h => hnil' (evidence_eq_nil.mp h)
      rw [hfirst.second_kept_iff hne hsecond hne' hle evidence_heard_no_overflow,
        sameVerdict_iff hsame hle]
      unfold OneIncident
      rw [or_iff_right hnil, or_iff_right hnil']

/-- the policy of the source's tests -/
def pollingPolicy : CircuitBreakerPolicy where
  maxDailyRealizedLossBps := 300
  maxEquityDrawdownBps := 1000
  maxConsecutiveBrokerRejections := 3
  maxConsecutiveCommandFailures := 2
  maxTimeSyncUnhealthyMs := 5000
  maxConsecutiveSnapshotStale := 2
  maxConsecutiveSymbolMetadataStale := 2
  halfOpenObservationMs := 1000
  autoReset := false

/-- a clock fault polled twice on a closed breaker -/
theorem second_observation_kept_time_sync :
    Kept (observed pollingPolicy .new { timeSyncUnhealthySinceMs := some 4999 } 10000)
      (observed pollingPolicy
        (observed pollingPolicy .new { timeSyncUnhealthySinceMs := some 4999 } 10000)
        { timeSyncUnhealthySinceMs := some 4999 } 10500) :=
  (second_observation_kept_iff pollingPolicy .new { timeSyncUnhealthySinceMs := some 4999 }
    (by decide) rfl).mpr
    (Or.inr (Or.inr (Or.inl ⟨⟨by decide +kernel, fun _ h => (by cases h)⟩, Or.inr (by decide)⟩)))

/-- a loss over its limit opens the breaker, and recovery starts with the loss as its baseline -/
def lossRecovery : List Call :=
  [{ policy := pollingPolicy, request := .observe { dailyRealizedLossBps := 400 },
     serverNowMs := 10000 },
   { policy := pollingPolicy
     request := .enterHalfOpen ⟨1, some 11000, some 11000, some 11000, some 11000, some 11000⟩
       { dailyRealizedLossBps := 400 }
     serverNowMs := 11000 }]

/-- rejected orders beside the same loss -/
def rejectedOrders : CircuitBreakerInput :=
  { dailyRealizedLossBps := 400, consecutiveBrokerRejections := 3 }

/-- Rejected orders then reopen the half-open breaker.  The fingerprint of that incident leaves out
the loss, the next poll of the same input counts it, and a third incident begins. -/
theorem half_open_fault_polled_twice :
    (lossRecovery.foldl step .new).status = .halfOpen ∧
      SameFault pollingPolicy rejectedOrders 11100 11200 ∧
      (observed pollingPolicy (lossRecovery.foldl step .new) rejectedOrders 11100).recoveryEpoch = 2 ∧
      (observed pollingPolicy (observed pollingPolicy (lossRecovery.foldl step .new) rejectedOrders
        11100) rejectedOrders 11200).recoveryEpoch = 3 ∧
      ¬ Kept (observed pollingPolicy (lossRecovery.foldl step .new) rejectedOrders 11100)
        (observed pollingPolicy (observed pollingPolicy (lossRecovery.foldl step .new) rejectedOrders
          11100) rejectedOrders 11200) := by
  have hfirst : (observed pollingPolicy (lossRecovery.foldl step .new) rejectedOrders
      11100).recoveryEpoch = 2 := by decide +kernel
  have hsecond : (observed pollingPolicy (observed pollingPolicy (lossRecovery.foldl step .new)
      rejectedOrders 11100) rejectedOrders 11200).recoveryEpoch = 3 := by decide +kernel
  refine ⟨by decide +kernel, rfl, hfirst, hsecond, fun hkept => ?_⟩
  have hsame := hkept.1
  rw [hfirst, hsecond] at hsame
  cases hsame

end Sinan.Breaker
