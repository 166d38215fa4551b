import Sinan.Breaker.Restore

/-!
# Circuit breaker: what a list of violations guarantees

`collectViolations` reports each kind of violation at most once, in a fixed order, and refuses a
manual trigger with blank text.  Both facts are said once, through the RANK of a violation in
that order (`Listed`); they are what makes the fingerprint of an incident pass the checks of a
later restore (`Explains`).
-/

namespace Sinan.Breaker

open Lib

/-- position of a violation in the order of `collect_violations`; the worsened forms of the two
loss limits stand in the place of the limit itself -/
def CircuitBreakerViolation.rank : CircuitBreakerViolation → Nat
  | .dailyRealizedLoss .. | .dailyRealizedLossWorsened .. => 0
  | .equityDrawdown .. | .equityDrawdownWorsened .. => 1
  | .consecutiveBrokerRejections .. => 2
  | .consecutiveCommandFailures .. => 3
  | .manualReconciliationRequired .. => 4
  | .storeRecoveryReconciliationPending => 5
  | .timeSyncUnhealthy .. => 6
  | .snapshotStale .. => 7
  | .symbolMetadataStale .. => 8
  | .manualTrigger .. => 9
  | .hardRiskViolationDuringRecovery => 10
  | .safetyInvariantViolation => 11

/-- the same position, read off a piece of evidence -/
def CircuitBreakerIncidentEvidence.rank : CircuitBreakerIncidentEvidence → Nat
  | .dailyRealizedLoss .. | .dailyRealizedLossWorsened .. => 0
  | .equityDrawdown .. | .equityDrawdownWorsened .. => 1
  | .consecutiveBrokerRejections .. => 2
  | .consecutiveCommandFailures .. => 3
  | .manualReconciliationRequired .. => 4
  | .storeRecoveryReconciliationPending => 5
  | .timeSyncUnhealthy .. => 6
  | .snapshotStale .. => 7
  | .symbolMetadataStale .. => 8
  | .manualTrigger .. => 9
  | .hardRiskViolationDuringRecovery => 10
  | .safetyInvariantViolation | .safetyInvariantError .. => 11

/-- the text of a manual trigger is not blank -/
def CircuitBreakerViolation.worded : CircuitBreakerViolation → Prop
  | .manualTrigger operatorId reason => blank operatorId = false ∧ blank reason = false
  | _ => True

/-- each kind of violation once, in order, with its text -/
structure Listed (n : Nat) (vs : List CircuitBreakerViolation) : Prop where
  ranks : (vs.map CircuitBreakerViolation.rank).Sublist (List.range n)
  worded : ∀ v ∈ vs, v.worded

/-! ## evidence of a violation -/

theorem incidentEvidence_rank (input : Option CircuitBreakerInput) (v : CircuitBreakerViolation) :
    (incidentEvidence input v).rank = v.rank := by
  cases v <;> rfl

theorem incidentEvidence_reason (input : Option CircuitBreakerInput)
    (v : CircuitBreakerViolation) :
    incidentEvidenceReason (incidentEvidence input v) = v.reason := by
  cases v <;> rfl

theorem incidentEvidence_source (input : Option CircuitBreakerInput)
    (v : CircuitBreakerViolation) :
    incidentEvidenceSource (incidentEvidence input v) = v.source := by
  cases v <;> rfl

theorem incidentEvidence_text (input : Option CircuitBreakerInput) {v : CircuitBreakerViolation}
    (h : v.worded) : incidentEvidenceHasBlankText (incidentEvidence input v) = false := by
  cases v with
  | manualTrigger operatorId reason =>
    show (blank operatorId || blank reason) = false
    rw [h.1, h.2]
    rfl
  | _ => rfl

theorem incidentEvidenceReason_ne_ok (e : CircuitBreakerIncidentEvidence) :
    incidentEvidenceReason e ≠ .ok := by
  cases e <;> exact fun h => (nomatch h)

/-- The fingerprint of an incident is not empty, repeats nothing, leaves no text blank, and its
first piece of evidence gives the reason and the source of the incident. -/
structure Explains (fingerprint : CircuitBreakerIncidentFingerprint)
    (reason : CircuitBreakerReason) (source : CircuitBreakerTriggerSource) : Prop where
  primary : ∃ e rest, fingerprint = e :: rest ∧ incidentEvidenceReason e = reason ∧
    incidentEvidenceSource e = source
  nodup : fingerprint.Nodup
  text : ∀ e ∈ fingerprint, incidentEvidenceHasBlankText e = false

variable {fp : CircuitBreakerIncidentFingerprint} {vs : List CircuitBreakerViolation}

theorem Explains.reason_ne_ok {reason source} (h : Explains fp reason source) : reason ≠ .ok := by
  obtain ⟨e, rest, -, rfl, -⟩ := h.primary
  exact incidentEvidenceReason_ne_ok e

theorem operatorBlank_source {e : CircuitBreakerIncidentEvidence}
    (h : incidentEvidenceHasBlankText e = false) :
    operatorBlank (some (incidentEvidenceSource e)) = false := by
  cases e with
  | manualTrigger operatorId reason =>
    show blank operatorId = false
    have h' : (blank operatorId || blank reason) = false := h
    exact (Bool.or_eq_false_iff.mp h').1
  | _ => rfl

theorem Explains.source_named {reason source} (h : Explains fp reason source) :
    operatorBlank (some source) = false := by
  obtain ⟨e, rest, hfp, -, rfl⟩ := h.primary
  exact operatorBlank_source (h.text e (by rw [hfp]; exact List.mem_cons_self))

theorem explains_error {e : CircuitBreakerError} (h : errorFingerprintHasBlankText e = false) :
    Explains [.safetyInvariantError e] .safetyInvariantViolation .safetyInvariant where
  primary := ⟨_, _, rfl, rfl, rfl⟩
  nodup := List.nodup_singleton _
  text := by
    intro e' he'
    rw [List.mem_singleton.mp he']
    exact h

theorem explains_of_listed {n : Nat} (h : Listed n vs) (hne : vs ≠ [])
    (input : Option CircuitBreakerInput) :
    Explains (incidentFingerprint vs input) (vs.head hne).reason (vs.head hne).source where
  primary := by
    cases vs with
    | nil => exact absurd rfl hne
    | cons v vs =>
      exact ⟨_, _, rfl, incidentEvidence_reason input v, incidentEvidence_source input v⟩
  nodup := by
    -- equal evidence would have equal rank, and the ranks increase
    apply List.Nodup.of_map CircuitBreakerIncidentEvidence.rank
    have hmap : (incidentFingerprint vs input).map CircuitBreakerIncidentEvidence.rank
        = vs.map CircuitBreakerViolation.rank := by
      unfold incidentFingerprint
      rw [List.map_map]
      exact List.map_congr_left fun v _ => incidentEvidence_rank input v
    rw [hmap]
    exact h.ranks.nodup List.nodup_range
  text := by
    intro e he
    obtain ⟨v, hv, rfl⟩ := List.mem_map.mp he
    exact incidentEvidence_text input (h.worded v hv)

/-! ## the collected list -/

variable {p : CircuitBreakerPolicy} {t : Int}

theorem pushIf_ranks (c : Bool) (v : CircuitBreakerViolation) :
    ((pushIf c v).map CircuitBreakerViolation.rank).Sublist [v.rank] := by
  cases c with
  | true => exact List.Sublist.refl _
  | false => exact List.nil_sublist _

theorem mem_pushIf {c : Bool} {v w : CircuitBreakerViolation} (h : w ∈ pushIf c v) :
    c = true ∧ w = v := by
  cases c with
  | true => exact ⟨rfl, List.mem_singleton.mp h⟩
  | false => exact absurd h List.not_mem_nil

theorem filter_pushIf (c : Bool) (v : CircuitBreakerViolation)
    (q : CircuitBreakerViolation → Bool) :
    (pushIf c v).filter q = pushIf (c && q v) v := by
  cases c with
  | false => rfl
  | true =>
    show [v].filter q = pushIf (q v) v
    cases h : q v with
    | true => rw [List.filter_cons_of_pos h]; rfl
    | false => rw [List.filter_cons_of_neg (by rw [h]; exact Bool.false_ne_true)]; rfl

theorem timeSyncViolations_eq {since : Option Int} (h : timeSyncViolations p since t = .ok vs) :
    ∃ c d, vs = pushIf c (.timeSyncUnhealthy d p.maxTimeSyncUnhealthyMs) := by
  unfold timeSyncViolations at h
  split at h
  · exact ⟨false, 0, (Except.ok.inj h).symm⟩
  · split at h
    · exact (nomatch h)
    · split at h
      · exact (nomatch h)
      · exact ⟨_, _, (Except.ok.inj h).symm⟩

theorem validateNonBlank_ok {field value : String} {u : Unit} :
    validateNonBlank field value = .ok u ↔ blank value = false := by
  unfold validateNonBlank
  cases h : blank value with
  | true => exact ⟨fun h' => (nomatch h'), fun h' => (nomatch h')⟩
  | false => exact ⟨fun _ => rfl, fun _ => rfl⟩

theorem manualTrigger_worded {m : Option ManualTrigger}
    (h : validateManualTrigger m = .ok ()) : ∀ v ∈ manualTriggerViolations m, v.worded := by
  intro v hv
  cases m with
  | none => exact absurd hv List.not_mem_nil
  | some trigger =>
    obtain ⟨u, h1, h2⟩ := bind_ok.mp h
    rw [List.mem_singleton.mp hv]
    exact ⟨validateNonBlank_ok.mp h1, validateNonBlank_ok.mp h2⟩

/-- the checks that are not about a loss limit, in order -/
def operationalViolations (p : CircuitBreakerPolicy) (input : CircuitBreakerInput)
    (timeSync : List CircuitBreakerViolation) : List CircuitBreakerViolation :=
  pushIf (input.consecutiveBrokerRejections ≥ p.maxConsecutiveBrokerRejections)
      (.consecutiveBrokerRejections input.consecutiveBrokerRejections
        p.maxConsecutiveBrokerRejections)
    ++ (pushIf (input.consecutiveCommandFailures ≥ p.maxConsecutiveCommandFailures)
      (.consecutiveCommandFailures input.consecutiveCommandFailures
        p.maxConsecutiveCommandFailures)
    ++ (pushIf (input.manualReconciliationRequiredCount > 0)
      (.manualReconciliationRequired input.manualReconciliationRequiredCount)
    ++ (pushIf input.storeRecoveryReconciliationPending .storeRecoveryReconciliationPending
    ++ (timeSync
    ++ (pushIf (input.consecutiveSnapshotStaleCount > p.maxConsecutiveSnapshotStale)
      (.snapshotStale input.consecutiveSnapshotStaleCount p.maxConsecutiveSnapshotStale)
    ++ (pushIf (input.consecutiveSymbolMetadataStaleCount > p.maxConsecutiveSymbolMetadataStale)
      (.symbolMetadataStale input.consecutiveSymbolMetadataStaleCount
        p.maxConsecutiveSymbolMetadataStale)
    ++ manualTriggerViolations input.manualTrigger))))))

variable {input : CircuitBreakerInput}

theorem collectViolations_eq (h : collectViolations p input t = .ok vs) :
    ∃ timeSync, validateManualTrigger input.manualTrigger = .ok () ∧
      timeSyncViolations p input.timeSyncUnhealthySinceMs t = .ok timeSync ∧
      vs = pushIf (input.dailyRealizedLossBps ≥ p.maxDailyRealizedLossBps)
          (.dailyRealizedLoss input.dailyRealizedLossBps p.maxDailyRealizedLossBps)
        ++ (pushIf (input.equityDrawdownBps ≥ p.maxEquityDrawdownBps)
          (.equityDrawdown input.equityDrawdownBps p.maxEquityDrawdownBps)
        ++ operationalViolations p input timeSync) := by
  unfold collectViolations at h
  obtain ⟨⟨⟩, hmanual, h⟩ := bind_ok.mp h
  obtain ⟨timeSync, htime, h⟩ := bind_ok.mp h
  refine ⟨timeSync, hmanual, htime, ?_⟩
  rw [← pure_ok.mp h]
  unfold operationalViolations
  simp only [List.append_assoc]

theorem manualTriggerViolations_ranks (m : Option ManualTrigger) :
    ((manualTriggerViolations m).map CircuitBreakerViolation.rank).Sublist [9] := by
  cases m with
  | none => exact List.nil_sublist _
  | some trigger => exact List.Sublist.refl _

variable {timeSync : List CircuitBreakerViolation}

theorem operationalViolations_ranks
    (h : timeSyncViolations p input.timeSyncUnhealthySinceMs t = .ok timeSync) :
    ((operationalViolations p input timeSync).map CircuitBreakerViolation.rank).Sublist
      [2, 3, 4, 5, 6, 7, 8, 9] := by
  obtain ⟨c, d, rfl⟩ := timeSyncViolations_eq h
  unfold operationalViolations
  simp only [List.map_append]
  exact (pushIf_ranks _ _).append ((pushIf_ranks _ _).append ((pushIf_ranks _ _).append
    ((pushIf_ranks _ _).append ((pushIf_ranks _ _).append ((pushIf_ranks _ _).append
    ((pushIf_ranks _ _).append (manualTriggerViolations_ranks _)))))))

theorem operationalViolations_mem (hmanual : validateManualTrigger input.manualTrigger = .ok ())
    (htime : timeSyncViolations p input.timeSyncUnhealthySinceMs t = .ok timeSync) :
    ∀ v ∈ operationalViolations p input timeSync, v.worded ∧ v.isLossLimit = false := by
  obtain ⟨c, d, rfl⟩ := timeSyncViolations_eq htime
  intro v hv
  unfold operationalViolations at hv
  simp only [List.mem_append] at hv
  rcases hv with hv | hv | hv | hv | hv | hv | hv | hv
  case inr.inr.inr.inr.inr.inr.inr =>
    refine ⟨manualTrigger_worded hmanual v hv, ?_⟩
    cases hm : input.manualTrigger with
    | none => rw [hm] at hv; exact absurd hv List.not_mem_nil
    | some trigger => rw [hm] at hv; rw [List.mem_singleton.mp hv]; rfl
  all_goals
    obtain ⟨-, rfl⟩ := mem_pushIf hv
    exact ⟨trivial, rfl⟩

theorem collectViolations_listed (h : collectViolations p input t = .ok vs) :
    Listed 10 vs := by
  obtain ⟨timeSync, hmanual, htime, rfl⟩ := collectViolations_eq h
  constructor
  · simp only [List.map_append]
    exact (pushIf_ranks _ _).append
      ((pushIf_ranks _ _).append (operationalViolations_ranks htime))
  · intro v hv
    rcases List.mem_append.mp hv with hv | hv
    · obtain ⟨-, rfl⟩ := mem_pushIf hv
      trivial
    · rcases List.mem_append.mp hv with hv | hv
      · obtain ⟨-, rfl⟩ := mem_pushIf hv
        trivial
      · exact (operationalViolations_mem hmanual htime v hv).1

theorem collectViolations_filter (h : collectViolations p input t = .ok vs) :
    ∃ timeSync, timeSyncViolations p input.timeSyncUnhealthySinceMs t = .ok timeSync ∧
      vs.filter (fun v => !v.isLossLimit) = operationalViolations p input timeSync := by
  obtain ⟨timeSync, hmanual, htime, rfl⟩ := collectViolations_eq h
  refine ⟨timeSync, htime, ?_⟩
  have hop : (operationalViolations p input timeSync).filter (fun v => !v.isLossLimit)
      = operationalViolations p input timeSync := by
    apply List.filter_eq_self.mpr
    intro v hv
    rw [(operationalViolations_mem hmanual htime v hv).2]
    rfl
  rw [List.filter_append, List.filter_append, filter_pushIf, filter_pushIf, hop]
  show pushIf (_ && false) _ ++ (pushIf (_ && false) _ ++ _) = _
  rw [Bool.and_false, Bool.and_false]
  rfl

/-! ## the half-open list -/

theorem filterHalfOpenViolations_eq {s : CircuitBreakerState} {all vs}
    (h : filterHalfOpenViolations s all input = .ok vs) :
    ∃ daily drawdown, s.halfOpenDailyLossBaselineBps = some daily ∧
      s.halfOpenDrawdownBaselineBps = some drawdown ∧
      vs = pushIf (input.dailyRealizedLossBps > daily)
          ((all.find? CircuitBreakerViolation.isDailyRealizedLoss).getD
            (.dailyRealizedLossWorsened daily input.dailyRealizedLossBps))
        ++ pushIf (input.equityDrawdownBps > drawdown)
          ((all.find? CircuitBreakerViolation.isEquityDrawdown).getD
            (.equityDrawdownWorsened drawdown input.equityDrawdownBps))
        ++ all.filter (fun v => !v.isLossLimit) := by
  unfold filterHalfOpenViolations at h
  split at h
  case h_1 daily drawdown hdaily hdrawdown =>
    exact ⟨daily, drawdown, hdaily, hdrawdown, (Except.ok.inj h).symm⟩
  case h_2 => exact (nomatch h)

theorem find_daily (all : List CircuitBreakerViolation) (b o : Nat) :
    let v := (all.find? CircuitBreakerViolation.isDailyRealizedLoss).getD
      (.dailyRealizedLossWorsened b o)
    v.rank = 0 ∧ v.worded := by
  cases h : all.find? CircuitBreakerViolation.isDailyRealizedLoss with
  | none => exact ⟨rfl, trivial⟩
  | some v =>
    have hv := List.find?_some h
    cases v with
    | dailyRealizedLoss o t => exact ⟨rfl, trivial⟩
    | _ => exact absurd hv Bool.false_ne_true

theorem find_drawdown (all : List CircuitBreakerViolation) (b o : Nat) :
    let v := (all.find? CircuitBreakerViolation.isEquityDrawdown).getD
      (.equityDrawdownWorsened b o)
    v.rank = 1 ∧ v.worded := by
  cases h : all.find? CircuitBreakerViolation.isEquityDrawdown with
  | none => exact ⟨rfl, trivial⟩
  | some v =>
    have hv := List.find?_some h
    cases v with
    | equityDrawdown o t => exact ⟨rfl, trivial⟩
    | _ => exact absurd hv Bool.false_ne_true

theorem filterHalfOpenViolations_listed {s : CircuitBreakerState}
    {all : List CircuitBreakerViolation} (hall : collectViolations p input t = .ok all)
    (h : filterHalfOpenViolations s all input = .ok vs) : Listed 10 vs := by
  obtain ⟨daily, drawdown, -, -, rfl⟩ := filterHalfOpenViolations_eq h
  obtain ⟨timeSync, htime, hfilter⟩ := collectViolations_filter hall
  have hdaily := find_daily all daily input.dailyRealizedLossBps
  have hdrawdown := find_drawdown all drawdown input.equityDrawdownBps
  constructor
  · rw [hfilter, List.map_append, List.map_append]
    have h0 := pushIf_ranks (input.dailyRealizedLossBps > daily)
      ((all.find? CircuitBreakerViolation.isDailyRealizedLoss).getD
        (.dailyRealizedLossWorsened daily input.dailyRealizedLossBps))
    have h1 := pushIf_ranks (input.equityDrawdownBps > drawdown)
      ((all.find? CircuitBreakerViolation.isEquityDrawdown).getD
        (.equityDrawdownWorsened drawdown input.equityDrawdownBps))
    rw [hdaily.1] at h0
    rw [hdrawdown.1] at h1
    exact (h0.append h1).append (operationalViolations_ranks htime)
  · intro v hv
    rcases List.mem_append.mp hv with hv | hv
    · rcases List.mem_append.mp hv with hv | hv
      · obtain ⟨-, rfl⟩ := mem_pushIf hv
        exact hdaily.2
      · obtain ⟨-, rfl⟩ := mem_pushIf hv
        exact hdrawdown.2
    · exact (collectViolations_listed hall).worded v ((List.mem_filter.mp hv).1)

theorem Listed.push_hardRisk (h : Listed 10 vs) (c : Bool) :
    Listed 11 (vs ++ pushIf c .hardRiskViolationDuringRecovery) where
  ranks := by
    rw [List.map_append]
    exact h.ranks.append (pushIf_ranks _ _)
  worded := by
    intro v hv
    rcases List.mem_append.mp hv with hv | hv
    · exact h.worded v hv
    · obtain ⟨-, rfl⟩ := mem_pushIf hv
      trivial

end Sinan.Breaker
