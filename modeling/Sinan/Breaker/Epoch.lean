import Sinan.Breaker.Invariant

/-!
# Circuit breaker: the recovery epoch names the incident

One call moves the epoch by one exactly when it opens an incident, and otherwise leaves the trigger
alone; over a run, equal epochs mean the same incident.  The transition clock and the blocked-intent
count never go back, whatever the server clock does.
-/

namespace Sinan.Breaker

open Lib CircuitBreakerOutcome

/-- `a` is present only together with a `b` that is not before it -/
def notLater (a b : Option Int) : Prop := ∀ x, a = some x → ∃ y, b = some y ∧ x ≤ y

theorem notLater_refl (a : Option Int) : notLater a a := fun x hx => ⟨x, hx, Int.le_refl x⟩

theorem notLater_trans {a b c : Option Int} (hab : notLater a b) (hbc : notLater b c) :
    notLater a c := by
  intro x hx
  obtain ⟨y, hy, hxy⟩ := hab x hx
  obtain ⟨z, hz, hyz⟩ := hbc y hy
  exact ⟨z, hz, Int.le_trans hxy hyz⟩

/-- what one call does to epoch, trigger, clock and count, while the epoch is not exhausted -/
structure EpochStep (s : CircuitBreakerState) (o : CircuitBreakerOutcome) : Prop where
  epoch : o.state.recoveryEpoch = s.recoveryEpoch ∨ o.state.recoveryEpoch = s.recoveryEpoch + 1
  rises : o.state.recoveryEpoch = s.recoveryEpoch + 1 ↔
    o.transition ∈ [.opened, .reopened, .safetyFallbackOpened]
  trigger : o.state.recoveryEpoch = s.recoveryEpoch →
    o.state.triggeredAtMs = s.triggeredAtMs ∧ o.state.triggeredBy = s.triggeredBy
  reason : o.state.recoveryEpoch = s.recoveryEpoch → o.state.reason ≠ s.reason →
    o.state.reason = .ok ∧ o.transition = .closed
  latest : notLater s.latestTransitionAtMs o.state.latestTransitionAtMs
  blocked : s.blockedIntentCount ≤ o.state.blockedIntentCount

/-- `s'` comes after `s` in a run -/
structure Later (s s' : CircuitBreakerState) : Prop where
  epoch : s.recoveryEpoch ≤ s'.recoveryEpoch
  trigger : s'.recoveryEpoch = s.recoveryEpoch →
    s'.triggeredAtMs = s.triggeredAtMs ∧ s'.triggeredBy = s.triggeredBy
  latest : notLater s.latestTransitionAtMs s'.latestTransitionAtMs
  blocked : s.blockedIntentCount ≤ s'.blockedIntentCount

/-! ## the transition clock -/

variable {s : CircuitBreakerState} {t : Int} {p : CircuitBreakerPolicy} {r : TransitionRequest}
  {o : CircuitBreakerOutcome}

theorem latest_of_mem {s' : CircuitBreakerState} (hn : s.notAfter t) (ht : t ∈ s'.timestamps) :
    notLater s.latestTransitionAtMs s'.latestTransitionAtMs := by
  intro x hx
  have hxt : x ≤ t := hn x (List.max?_eq_some_iff.mp hx).1
  cases hy : s'.latestTransitionAtMs with
  | none => rw [List.max?_eq_none_iff.mp hy] at ht; exact absurd ht List.not_mem_nil
  | some y => exact ⟨y, rfl, Int.le_trans hxt (notAfter_of_latest hy t ht)⟩

theorem latest_congr {s' : CircuitBreakerState} (h : s'.timestamps = s.timestamps) :
    notLater s.latestTransitionAtMs s'.latestTransitionAtMs := by
  unfold CircuitBreakerState.latestTransitionAtMs
  rw [h]
  exact notLater_refl _

theorem latest_effect (he : Effect p s r t o) :
    notLater s.latestTransitionAtMs o.state.latestTransitionAtMs := by
  cases he with
  | stays state => rw [state]; exact notLater_refl _
  | opens h =>
    obtain ⟨_, _, _, _, atMs, hstate, -, -, hn, -⟩ := h.state
    rw [hstate]
    exact latest_of_mem hn (List.reduceOption_mem_iff.mpr List.mem_cons_self)
  | clears _ _ _ _ after state =>
    rw [state]
    exact latest_of_mem after
      (List.reduceOption_mem_iff.mpr (List.mem_cons_of_mem _ List.mem_cons_self))
  | admits _ _ _ _ _ _ _ _ _ after state =>
    rw [state]
    exact latest_of_mem after (List.reduceOption_mem_iff.mpr
      (List.mem_cons_of_mem _ (List.mem_cons_of_mem _ List.mem_cons_self)))
  | closes _ _ _ _ _ _ _ _ after state =>
    rw [state]
    exact latest_of_mem after (List.reduceOption_mem_iff.mpr (List.mem_cons_of_mem _
      (List.mem_cons_of_mem _ (List.mem_cons_of_mem _ List.mem_cons_self))))
  | counts _ _ _ state => rw [state]; exact latest_congr rfl

/-! ## one call -/

theorem opens_iff (tr : CircuitBreakerTransition) :
    tr.opens ↔ tr ∈ [.opened, .reopened, .safetyFallbackOpened] := by
  cases tr <;> simp [CircuitBreakerTransition.opens]

theorem epochStep_of_same (hepoch : o.state.recoveryEpoch = s.recoveryEpoch)
    (htr : ¬ o.transition.opens) (hat : o.state.triggeredAtMs = s.triggeredAtMs)
    (hby : o.state.triggeredBy = s.triggeredBy)
    (hreason : o.state.reason = s.reason ∨ o.state.reason = .ok ∧ o.transition = .closed)
    (hlatest : notLater s.latestTransitionAtMs o.state.latestTransitionAtMs)
    (hblocked : s.blockedIntentCount ≤ o.state.blockedIntentCount) : EpochStep s o where
  epoch := .inl hepoch
  rises := ⟨fun h => by omega, fun h => absurd ((opens_iff _).mpr h) htr⟩
  trigger := fun _ => ⟨hat, hby⟩
  reason := by
    intro _ hne
    rcases hreason with h | h
    · exact absurd h hne
    · exact h
  latest := hlatest
  blocked := hblocked

theorem epochStep_effect (he : Effect p s r t o) (hmax : s.recoveryEpoch < u64Max) :
    EpochStep s o := by
  have hlatest := latest_effect he
  cases he with
  | stays state transition =>
    exact epochStep_of_same (by rw [state]) (by rw [transition]; exact id) (by rw [state])
      (by rw [state]) (.inl (by rw [state])) hlatest (Nat.le_of_eq (by rw [state]))
  | opens h =>
    obtain ⟨epoch, _, _, _, _, hstate, -, -, -, hepoch⟩ := h.state
    have hnext : o.state.recoveryEpoch = s.recoveryEpoch + 1 := by
      rw [hstate]
      show epoch = _
      omega
    have hblocked : o.state.blockedIntentCount = s.blockedIntentCount := by rw [hstate]; rfl
    exact
      { epoch := .inr hnext
        rises := ⟨fun _ => (opens_iff _).mp h.transition, fun _ => hnext⟩
        trigger := fun hsame => by omega
        reason := fun hsame => by omega
        latest := hlatest
        blocked := by omega }
  | clears _ _ _ _ _ state transition =>
    exact epochStep_of_same (by rw [state]) (by rw [transition]; exact id) (by rw [state])
      (by rw [state]) (.inl (by rw [state])) hlatest (Nat.le_of_eq (by rw [state]))
  | admits _ _ _ _ _ _ _ _ _ _ state transition =>
    exact epochStep_of_same (by rw [state]) (by rw [transition]; exact id) (by rw [state])
      (by rw [state]) (.inl (by rw [state])) hlatest (Nat.le_of_eq (by rw [state]))
  | closes _ _ _ _ _ _ _ _ _ state transition =>
    exact epochStep_of_same (by rw [state]; rfl) (by rw [transition]; exact id)
      (by rw [state]; rfl) (by rw [state]; rfl) (.inr ⟨by rw [state]; rfl, transition⟩) hlatest
      (Nat.le_of_eq (by rw [state]; rfl))
  | counts total _ larger state transition =>
    exact epochStep_of_same (by rw [state]) (by rw [transition]; exact id) (by rw [state])
      (by rw [state]) (.inl (by rw [state])) hlatest (by rw [state]; exact Nat.le_of_lt larger)

/-! ## runs -/

theorem later_refl (s : CircuitBreakerState) : Later s s where
  epoch := Nat.le_refl _
  trigger := fun _ => ⟨rfl, rfl⟩
  latest := notLater_refl _
  blocked := Nat.le_refl _

theorem later_trans {a b c : CircuitBreakerState} (hab : Later a b) (hbc : Later b c) :
    Later a c where
  epoch := Nat.le_trans hab.epoch hbc.epoch
  trigger := by
    -- the epoch in between is squeezed to the same value
    intro hsame
    have h1 := hab.epoch
    have h2 := hbc.epoch
    obtain ⟨hat, hby⟩ := hab.trigger (by omega)
    obtain ⟨hat', hby'⟩ := hbc.trigger (by omega)
    exact ⟨hat'.trans hat, hby'.trans hby⟩
  latest := notLater_trans hab.latest hbc.latest
  blocked := Nat.le_trans hab.blocked hbc.blocked

theorem EpochStep.later (h : EpochStep s o) :
    Later s o.state where
  epoch := by rcases h.epoch with h | h <;> omega
  trigger := h.trigger
  latest := h.latest
  blocked := h.blocked

theorem epoch_le_effect (he : Effect p s r t o) :
    s.recoveryEpoch ≤ o.state.recoveryEpoch := by
  by_cases hmax : s.recoveryEpoch < u64Max
  · exact (epochStep_effect he hmax).later.epoch
  · cases he with
    | opens h =>
      obtain ⟨epoch, _, _, _, _, hstate, -, -, -, hepoch⟩ := h.state
      rw [hstate]
      show s.recoveryEpoch ≤ epoch
      omega
    | stays state => exact Nat.le_of_eq (by rw [state])
    | clears _ _ _ _ _ state => exact Nat.le_of_eq (by rw [state])
    | admits _ _ _ _ _ _ _ _ _ _ state => exact Nat.le_of_eq (by rw [state])
    | closes _ _ _ _ _ _ _ _ _ state => exact Nat.le_of_eq (by rw [state]; rfl)
    | counts _ _ _ state => exact Nat.le_of_eq (by rw [state])

theorem epoch_le_run (s : CircuitBreakerState) (calls : List Call) {i k : Nat} (hik : i ≤ k) :
    (before step s calls i).recoveryEpoch ≤ (before step s calls k).recoveryEpoch :=
  before_related step (R := fun a b => a.recoveryEpoch ≤ b.recoveryEpoch)
    (fun _ => Nat.le_refl _) Nat.le_trans s calls hik
    fun _ c _ _ => epoch_le_effect (call_effect c _)

theorem later_run (s : CircuitBreakerState) (calls : List Call) {i k : Nat} (hik : i ≤ k)
    (hmax : (before step s calls k).recoveryEpoch < u64Max) :
    Later (before step s calls i) (before step s calls k) := by
  refine before_related step later_refl later_trans s calls hik fun j c hj _ => ?_
  have hle := epoch_le_run s calls (Nat.le_of_lt hj)
  exact (epochStep_effect (call_effect c _) (by omega)).later

/-- Along every run from `new`: what each call does, and what relates any two states, as long as the
epoch is not exhausted. -/
theorem epoch_names_incident (calls : List Call) :
    (∀ k c, calls[k]? = some c → (before step .new calls k).recoveryEpoch < u64Max →
      EpochStep (before step .new calls k) (c.outcome (before step .new calls k))) ∧
    (∀ i k, i ≤ k → (before step .new calls k).recoveryEpoch < u64Max →
      Later (before step .new calls i) (before step .new calls k)) :=
  ⟨fun _ c _ hmax => epochStep_effect (call_effect c _) hmax,
    fun _ _ hik hmax => later_run .new calls hik hmax⟩

/-- a run through an incident whose clock then regresses -/
def regressingCalls : List Call :=
  [{ policy := impatientPolicy, request := .observe { dailyRealizedLossBps := 7 }, serverNowMs := 10 },
   { policy := impatientPolicy, request := .observe {}, serverNowMs := 12 },
   { policy := impatientPolicy, request := .observe {}, serverNowMs := -3 }]

/-- the regressed clock opens the next epoch, at the old latest time -/
theorem epoch_names_incident_regressing :
    (before step .new regressingCalls 2).recoveryEpoch = 1 ∧
      (before step .new regressingCalls 3).recoveryEpoch = 2 ∧
      (before step .new regressingCalls 3).triggeredAtMs = some 12 ∧
      Later (before step .new regressingCalls 1) (before step .new regressingCalls 3) :=
  ⟨by decide, by decide, by decide,
    (epoch_names_incident regressingCalls).2 1 3 (by decide) (by decide)⟩

end Sinan.Breaker
