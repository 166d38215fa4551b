import Sinan.Breaker.Failures

/-!
# Circuit breaker: a close needs a watched recovery

A statement about histories.  A half-open state of a run carries data that only one call can have
written: the call that entered HALF_OPEN, after the refreshes of that very incident.  `HalfOpenSince`
says that this call is still the last word, every input since then having been quiet; the induction
over the run is on the position `k`.  A closing call then inherits the whole history.
-/

namespace Sinan.Breaker

open Lib CircuitBreakerOutcome

/-- losses not above those of `input`, and no other violation -/
def QuietCall (p : CircuitBreakerPolicy) (input : CircuitBreakerInput) (d : Call) : Prop :=
  (∀ seen, d.request.input? = some seen →
    Quiet p input.dailyRealizedLossBps input.equityDrawdownBps seen d.serverNowMs) ∧
  d.request.hardRisk = false

section
variable (p : CircuitBreakerPolicy) (calls : List Call)

/-- the state in front of the `k`-th call of a run from `new` -/
def stateAt (k : Nat) : CircuitBreakerState := before step .new calls k

/-- The `j`-th call entered HALF_OPEN for the incident of `triggeredAtMs`, and the state in front of
the `k`-th call is still the one it left, under quiet inputs only. -/
structure HalfOpenSince (k j : Nat) (e : Call) (readiness : HalfOpenReadiness)
    (input : CircuitBreakerInput) (triggeredAtMs : Int) : Prop where
  earlier : j < k
  call : calls[j]? = some e
  request : e.request = .enterHalfOpen readiness input
  entered : (e.outcome (stateAt calls j)).transition = .enteredHalfOpen
  refreshed : Refreshed readiness triggeredAtMs e.serverNowMs
  triggered : (stateAt calls k).triggeredAtMs = some triggeredAtMs
  halfOpened : (stateAt calls k).halfOpenedAtMs = some e.serverNowMs
  daily : (stateAt calls k).halfOpenDailyLossBaselineBps = some input.dailyRealizedLossBps
  drawdown : (stateAt calls k).halfOpenDrawdownBaselineBps = some input.equityDrawdownBps
  held : ∀ i, j < i → i ≤ k → (stateAt calls i).status = .halfOpen ∧
    (stateAt calls i).recoveryEpoch = readiness.recoveryEpoch
  quiet : ∀ i d, j < i → i < k → calls[i]? = some d → QuietCall p input d

variable {p calls}

theorem HalfOpenSince.quietCall {k j e readiness input triggeredAtMs}
    (h : HalfOpenSince p calls k j e readiness input triggeredAtMs) {c : Call}
    (hq : QuietRequest p (stateAt calls k) c.request c.serverNowMs) : QuietCall p input c :=
  hq _ _ h.daily h.drawdown

theorem HalfOpenSince.next {k j e readiness input triggeredAtMs}
    (h : HalfOpenSince p calls k j e readiness input triggeredAtMs) {c : Call}
    (hc : calls[k]? = some c) (hq : QuietRequest p (stateAt calls k) c.request c.serverNowMs)
    (n : Nat) (hnext : stateAt calls (k + 1)
      = { stateAt calls k with blockedIntentCount := n }) :
    HalfOpenSince p calls (k + 1) j e readiness input triggeredAtMs where
  earlier := Nat.lt_succ_of_lt h.earlier
  call := h.call
  request := h.request
  entered := h.entered
  refreshed := h.refreshed
  triggered := by rw [hnext]; exact h.triggered
  halfOpened := by rw [hnext]; exact h.halfOpened
  daily := by rw [hnext]; exact h.daily
  drawdown := by rw [hnext]; exact h.drawdown
  held := by
    intro i hji hik
    rcases Nat.lt_or_eq_of_le hik with hlt | rfl
    · exact h.held i hji (Nat.le_of_lt_succ hlt)
    · rw [hnext]
      exact h.held k h.earlier (Nat.le_refl k)
  quiet := by
    intro i d hji hik hd
    rcases Nat.lt_or_eq_of_le (Nat.le_of_lt_succ hik) with hlt | rfl
    · exact h.quiet i d hji hlt hd
    · obtain rfl : c = d := Option.some.inj (hc.symm.trans hd)
      exact h.quietCall hq

theorem HalfOpenSince.past {k j e readiness input triggeredAtMs}
    (h : HalfOpenSince p calls k j e readiness input triggeredAtMs) (hc : calls[k]? = none) :
    HalfOpenSince p calls (k + 1) j e readiness input triggeredAtMs := by
  have hnext : stateAt calls (k + 1) = stateAt calls k := before_past step _ hc
  refine ⟨Nat.lt_succ_of_lt h.earlier, h.call, h.request, h.entered, h.refreshed,
    hnext ▸ h.triggered, hnext ▸ h.halfOpened, hnext ▸ h.daily, hnext ▸ h.drawdown, ?_, ?_⟩
  · intro i hji hik
    rcases Nat.lt_or_eq_of_le hik with hlt | rfl
    · exact h.held i hji (Nat.le_of_lt_succ hlt)
    · exact hnext ▸ h.held k h.earlier (Nat.le_refl k)
  · intro i d hji hik hd
    rcases Nat.lt_or_eq_of_le (Nat.le_of_lt_succ hik) with hlt | rfl
    · exact h.quiet i d hji hlt hd
    · rw [hc] at hd
      exact (nomatch hd)

theorem halfOpenSince_entered {k : Nat} {c : Call} {readiness : HalfOpenReadiness}
    {input : CircuitBreakerInput} {triggeredAtMs : Int} (hc : calls[k]? = some c)
    (request : c.request = .enterHalfOpen readiness input)
    (triggered : (stateAt calls k).triggeredAtMs = some triggeredAtMs)
    (epoch : readiness.recoveryEpoch = (stateAt calls k).recoveryEpoch)
    (refreshed : Refreshed readiness triggeredAtMs c.serverNowMs)
    (state : (c.outcome (stateAt calls k)).state = { stateAt calls k with
      status := .halfOpen
      halfOpenedAtMs := some c.serverNowMs
      halfOpenDailyLossBaselineBps := some input.dailyRealizedLossBps
      halfOpenDrawdownBaselineBps := some input.equityDrawdownBps })
    (transition : (c.outcome (stateAt calls k)).transition = .enteredHalfOpen) :
    HalfOpenSince p calls (k + 1) k c readiness input triggeredAtMs := by
  have hnext : stateAt calls (k + 1) = (c.outcome (stateAt calls k)).state :=
    before_succ step _ hc
  rw [state] at hnext
  refine ⟨Nat.lt_succ_self k, hc, request, transition, refreshed, by rw [hnext]; exact triggered,
    by rw [hnext], by rw [hnext], by rw [hnext], ?_, fun i d hki hik => by omega⟩
  intro i hki hik
  obtain rfl : i = k + 1 := by omega
  rw [hnext]
  exact ⟨rfl, epoch.symm⟩

theorem halfOpenSince_run (hp : ∀ c ∈ calls, c.policy = p) (k : Nat)
    (hhalf : (stateAt calls k).status = .halfOpen) :
    ∃ j e readiness input triggeredAtMs,
      HalfOpenSince p calls k j e readiness input triggeredAtMs := by
  induction k with
  | zero => exact (nomatch hhalf)
  | succ k ih =>
    cases hc : calls[k]? with
    | none =>
      have hsame : stateAt calls (k + 1) = stateAt calls k := before_past step _ hc
      rw [hsame] at hhalf
      obtain ⟨j, e, readiness, input, triggeredAtMs, h⟩ := ih hhalf
      exact ⟨j, e, readiness, input, triggeredAtMs, h.past hc⟩
    | some c =>
      have hnext : stateAt calls (k + 1) = (c.outcome (stateAt calls k)).state :=
        before_succ step _ hc
      have he := call_effect c (stateAt calls k)
      rw [hp c (List.mem_of_getElem? hc)] at he
      cases he with
      | stays state transition quiet =>
        rw [state] at hnext
        rw [hnext] at hhalf
        obtain ⟨j, e, readiness, input, triggeredAtMs, h⟩ := ih hhalf
        exact ⟨j, e, readiness, input, triggeredAtMs, h.next hc (quiet hhalf) _ hnext⟩
      | opens hopens =>
        obtain ⟨_, _, _, _, _, hstate, -⟩ := hopens.state
        rw [hnext, hstate] at hhalf
        exact (nomatch hhalf)
      | clears _ status _ _ _ state =>
        rw [hnext, state] at hhalf
        exact absurd (status.symm.trans hhalf) (by decide)
      | admits readiness input triggeredAtMs request status triggered epoch refreshed nonneg
          after state transition =>
        exact ⟨k, c, readiness, input, triggeredAtMs,
          halfOpenSince_entered hc request triggered epoch refreshed state transition⟩
      | closes _ _ _ _ _ _ _ _ _ state =>
        rw [hnext, state] at hhalf
        exact (nomatch hhalf)
      | counts observedTotal request larger state =>
        rw [state] at hnext
        rw [hnext] at hhalf
        obtain ⟨j, e, readiness, input, triggeredAtMs, h⟩ := ih hhalf
        have hq : QuietRequest p (stateAt calls k) c.request c.serverNowMs := by
          rw [request]
          exact fun _ _ _ _ => ⟨fun _ hin => (nomatch hin), rfl⟩
        exact ⟨j, e, readiness, input, triggeredAtMs, h.next hc hq _ hnext⟩

end

variable {s : CircuitBreakerState} {r : TransitionRequest} {o : CircuitBreakerOutcome}

theorem closes_of_closed {p : CircuitBreakerPolicy} {t : Int} (he : Effect p s r t o)
    (hclosed : o.transition = .closed) :
    ∃ halfOpenedAtMs resetBy, s.status = .halfOpen ∧ s.halfOpenedAtMs = some halfOpenedAtMs ∧
      p.halfOpenObservationMs ≤ t - halfOpenedAtMs ∧ QuietRequest p s r t ∧
      o.state = closedState s resetBy t := by
  cases he with
  | closes halfOpenedAtMs resetBy status halfOpened observed named quiet nonneg after state =>
    exact ⟨halfOpenedAtMs, resetBy, status, halfOpened, observed, quiet, state⟩
  | opens h =>
    have := h.transition
    rw [hclosed] at this
    exact this.elim
  | stays _ transition => rw [hclosed] at transition; exact (nomatch transition)
  | clears _ _ _ _ _ _ transition => rw [hclosed] at transition; exact (nomatch transition)
  | admits _ _ _ _ _ _ _ _ _ _ _ transition => rw [hclosed] at transition; exact (nomatch transition)
  | counts _ _ _ _ transition => rw [hclosed] at transition; exact (nomatch transition)

theorem open_not_closed {p : CircuitBreakerPolicy} {t : Int} (he : Effect p s r t o)
    (hopen : s.status = .open) : o.state.status ≠ .closed := by
  intro hclosed
  cases he with
  | stays state => rw [state, hopen] at hclosed; exact (nomatch hclosed)
  | opens h =>
    obtain ⟨_, _, _, _, _, hstate, -⟩ := h.state
    rw [hstate] at hclosed
    exact (nomatch hclosed)
  | clears _ _ _ _ _ state => rw [state] at hclosed; exact absurd (hopen.symm.trans hclosed) (by decide)
  | admits _ _ _ _ _ _ _ _ _ _ state => rw [state] at hclosed; exact (nomatch hclosed)
  | closes _ _ status => exact absurd (hopen.symm.trans status) (by decide)
  | counts _ _ _ state => rw [state] at hclosed; exact absurd (hopen.symm.trans hclosed) (by decide)

/-- Under one policy, a call that closes the breaker has a watched recovery behind it: an earlier
call entered HALF_OPEN with readiness for this very incident, nothing changed status or epoch since,
the observation window has passed and every input seen in it was quiet.  An open breaker is never
closed directly. -/
theorem close_needs_watched_recovery (p : CircuitBreakerPolicy) (calls : List Call)
    (hp : ∀ c ∈ calls, c.policy = p) :
    (∀ k c, calls[k]? = some c → (c.outcome (stateAt calls k)).transition = .closed →
      ∃ j e readiness input triggeredAtMs, j < k ∧ calls[j]? = some e ∧
        e.request = .enterHalfOpen readiness input ∧
        (e.outcome (stateAt calls j)).transition = .enteredHalfOpen ∧
        readiness.recoveryEpoch = (c.outcome (stateAt calls k)).state.recoveryEpoch ∧
        (c.outcome (stateAt calls k)).state.triggeredAtMs = some triggeredAtMs ∧
        Refreshed readiness triggeredAtMs e.serverNowMs ∧
        p.halfOpenObservationMs ≤ c.serverNowMs - e.serverNowMs ∧
        (∀ i, j < i → i ≤ k → (stateAt calls i).status = .halfOpen ∧
          (stateAt calls i).recoveryEpoch = readiness.recoveryEpoch) ∧
        ∀ i d, j < i → i ≤ k → calls[i]? = some d → QuietCall p input d) ∧
    ∀ k, (stateAt calls k).status = .open → (stateAt calls (k + 1)).status ≠ .closed := by
  constructor
  · intro k c hc hclosed
    have he := call_effect c (stateAt calls k)
    rw [hp c (List.mem_of_getElem? hc)] at he
    obtain ⟨h, resetBy, hhalf, hopened, hobserved, hquiet, hstate⟩ := closes_of_closed he hclosed
    obtain ⟨j, e, readiness, input, triggeredAtMs, hist⟩ := halfOpenSince_run hp k hhalf
    obtain rfl : h = e.serverNowMs := Option.some.inj (hopened.symm.trans hist.halfOpened)
    refine ⟨j, e, readiness, input, triggeredAtMs, hist.earlier, hist.call, hist.request,
      hist.entered, ?_, ?_, hist.refreshed, hobserved, hist.held, ?_⟩
    · rw [hstate]
      exact (hist.held k hist.earlier (Nat.le_refl k)).2.symm
    · rw [hstate]
      exact hist.triggered
    · intro i d hji hik hd
      rcases Nat.lt_or_eq_of_le hik with hlt | rfl
      · exact hist.quiet i d hji hlt hd
      · obtain rfl : c = d := Option.some.inj (hc.symm.trans hd)
        exact hist.quietCall hquiet
  · intro k hopen
    cases hc : calls[k]? with
    | none =>
      have hsame : stateAt calls (k + 1) = stateAt calls k := before_past step _ hc
      rw [hsame, hopen]
      decide
    | some c =>
      have hnext : stateAt calls (k + 1) = (c.outcome (stateAt calls k)).state :=
        before_succ step _ hc
      rw [hnext]
      exact open_not_closed (call_effect c _) hopen

/-- a full recovery: loss limit at 10, healthy at 11, refreshed and half-open at 20, closed at 20 -/
def recoveryCalls : List Call :=
  [{ policy := impatientPolicy, request := .observe { dailyRealizedLossBps := 7 }, serverNowMs := 10 },
   { policy := impatientPolicy, request := .observe {}, serverNowMs := 11 },
   { policy := impatientPolicy
     request := .enterHalfOpen
      { recoveryEpoch := 1, accountRefreshedAtMs := some 12, positionsRefreshedAtMs := some 12,
        ordersRefreshedAtMs := some 12, symbolMetadataRefreshedAtMs := some 12,
        pendingCommandsReconciledAtMs := some 13 } {}
     serverNowMs := 20 },
   healthyClose 20]

theorem close_needs_watched_recovery_full :
    ((healthyClose 20).outcome (stateAt recoveryCalls 3)).transition = .closed ∧
      ∃ j e readiness input triggeredAtMs, j < 3 ∧ recoveryCalls[j]? = some e ∧
        e.request = .enterHalfOpen readiness input ∧ Refreshed readiness triggeredAtMs e.serverNowMs := by
  have hclosed : ((healthyClose 20).outcome (stateAt recoveryCalls 3)).transition = .closed := by
    decide
  obtain ⟨j, e, readiness, input, triggeredAtMs, hj, he, hreq, -, -, -, href, -⟩ :=
    (close_needs_watched_recovery impatientPolicy recoveryCalls (by decide)).1 3 (healthyClose 20)
      rfl hclosed
  exact ⟨hclosed, j, e, readiness, input, triggeredAtMs, hj, he, hreq, href⟩

/-! ## the length of the watch -/

/-- no state, request or time makes `transition` complain about the policy -/
def AcceptedPolicy (p : CircuitBreakerPolicy) : Prop :=
  ∀ s r t field requirement, (transition p s r t).error ≠ some (.invalidPolicy field requirement)

/-- in every run from `new` a breaker closes later than the call that entered HALF_OPEN, whose time the
state has kept -/
def ClosesLate (p : CircuitBreakerPolicy) : Prop :=
  ∀ calls : List Call, (∀ c ∈ calls, c.policy = p) → ∀ k c, calls[k]? = some c →
    (stateAt calls k).status = .halfOpen → (c.outcome (stateAt calls k)).state.status = .closed →
    ∃ j e, j < k ∧ calls[j]? = some e ∧
      (e.outcome (stateAt calls j)).transition = .enteredHalfOpen ∧
      (stateAt calls k).halfOpenedAtMs = some e.serverNowMs ∧ e.serverNowMs < c.serverNowMs

theorem validate_error_policy {p : CircuitBreakerPolicy} {e : CircuitBreakerError}
    (h : p.validate = .error e) : ∃ field requirement, e = .invalidPolicy field requirement := by
  unfold CircuitBreakerPolicy.validate at h
  split at h
  · exact ⟨_, _, (Except.error.inj h).symm⟩
  · split at h
    · exact ⟨_, _, (Except.error.inj h).symm⟩
    · cases h

theorem AcceptedPolicy.valid {p : CircuitBreakerPolicy} (h : AcceptedPolicy p) :
    p.validate = .ok () := by
  cases hvalid : p.validate with
  | ok u => rfl
  | error e =>
    obtain ⟨field, requirement, rfl⟩ := validate_error_policy hvalid
    refine absurd ?_ (h .new (.recordBlockedIntentCount 0) 0 field requirement)
    unfold transition
    rw [if_neg (Int.lt_irrefl 0), hvalid]
    rfl

theorem accepted_of_valid {p : CircuitBreakerPolicy} (hvalid : p.validate = .ok ()) :
    AcceptedPolicy p := by
  intro s r t field requirement herror
  rcases ((transition_answers p s r t).failure _ herror).1 with hnot | hinvalid
  · exact hnot field requirement rfl
  · exact hinvalid hvalid

theorem closes_of_status {p : CircuitBreakerPolicy} {t : Int} (he : Effect p s r t o)
    (hhalf : s.status = .halfOpen) (hclosed : o.state.status = .closed) :
    ∃ halfOpenedAtMs, s.halfOpenedAtMs = some halfOpenedAtMs ∧
      p.halfOpenObservationMs ≤ t - halfOpenedAtMs := by
  cases he with
  | closes halfOpenedAtMs _ _ halfOpened observed => exact ⟨halfOpenedAtMs, halfOpened, observed⟩
  | opens h =>
    obtain ⟨_, _, _, _, _, hstate, -⟩ := h.state
    rw [hstate] at hclosed
    exact (nomatch hclosed)
  | stays state => rw [state, hhalf] at hclosed; exact (nomatch hclosed)
  | clears _ status => exact absurd (status.symm.trans hhalf) (by decide)
  | admits _ _ _ _ status => exact absurd (status.symm.trans hhalf) (by decide)
  | counts _ _ _ state => rw [state] at hclosed; exact absurd (hhalf.symm.trans hclosed) (by decide)

/-- what a policy that validates asks of its numbers -/
structure CircuitBreakerPolicy.Positive (p : CircuitBreakerPolicy) : Prop where
  loss : 0 < p.maxDailyRealizedLossBps
  drawdown : 0 < p.maxEquityDrawdownBps
  rejections : 0 < p.maxConsecutiveBrokerRejections
  failures : 0 < p.maxConsecutiveCommandFailures
  window : p.halfOpenObservationMs ≠ 0

theorem positive_of_valid {p : CircuitBreakerPolicy} (h : p.validate = .ok ()) : p.Positive := by
  unfold CircuitBreakerPolicy.validate at h
  split at h
  · cases h
  case h_2 hfind =>
    have hnone := List.find?_eq_none.mp hfind
    simp only [CircuitBreakerPolicy.requiredPositive, List.forall_mem_cons, beq_iff_eq] at hnone
    obtain ⟨h1, h2, h3, h4, h5, -⟩ := hnone
    exact ⟨by omega, by omega, by omega, by omega, h5⟩

theorem collectViolations_zero {p : CircuitBreakerPolicy} (h : p.Positive)
    (trigger : Option ManualTrigger) (htrigger : validateManualTrigger trigger = .ok ()) (t : Int) :
    collectViolations p { manualTrigger := trigger } t = .ok (manualTriggerViolations trigger) := by
  unfold collectViolations
  rw [htrigger]
  have hzero : ∀ {n : Nat}, 0 < n → decide (0 ≥ n) = false := fun hn =>
    decide_eq_false (by omega)
  have hnone : ∀ n : Nat, decide (0 > n) = false := fun n => decide_eq_false (by omega)
  show Except.ok _ = _
  simp only [hzero h.loss, hzero h.drawdown, hzero h.rejections, hzero h.failures, hnone, pushIf,
    Bool.false_eq_true, if_false, List.nil_append]

/-- an operator trips the breaker, it is half-open at once and closed at once, all at time zero -/
def instantRecovery (p : CircuitBreakerPolicy) : List Call :=
  [{ policy := p, request := .observe { manualTrigger := some ⟨"operator", "drill"⟩ }, serverNowMs := 0 },
   { policy := p
     request := .enterHalfOpen
      { recoveryEpoch := 1, accountRefreshedAtMs := some 0, positionsRefreshedAtMs := some 0,
        ordersRefreshedAtMs := some 0, symbolMetadataRefreshedAtMs := some 0,
        pendingCommandsReconciledAtMs := some 0 }
      {}
     serverNowMs := 0 },
   { policy := p
     request := .close healthy (.operator ⟨"audit", "operator", "drill", "checked"⟩)
     serverNowMs := 0 }]

section
variable {p : CircuitBreakerPolicy} (hvalid : p.validate = .ok ())
include hvalid

theorem transition_zero {s : CircuitBreakerState} (r : TransitionRequest)
    (hlatest : s.latestTransitionAtMs.getD 0 = 0) :
    transition p s r 0 = dispatch p s r 0 := by
  unfold transition
  rw [if_neg (Int.lt_irrefl 0), hvalid]
  cases h : s.latestTransitionAtMs with
  | none => rfl
  | some latest =>
    rw [h] at hlatest
    obtain rfl : latest = 0 := hlatest
    exact if_neg (Int.lt_irrefl 0)

def drilled : CircuitBreakerState :=
  incidentState .new 1 .manualTrigger (.operator "operator") [.manualTrigger "operator" "drill"] 0

def drilledHalfOpen : CircuitBreakerState :=
  { drilled with
    status := .halfOpen
    halfOpenedAtMs := some 0
    halfOpenDailyLossBaselineBps := some 0
    halfOpenDrawdownBaselineBps := some 0 }

theorem instantRecovery_drilled : stateAt (instantRecovery p) 1 = drilled := by
  have hviolations := collectViolations_zero (positive_of_valid hvalid)
    (some ⟨"operator", "drill"⟩) rfl 0
  show (transition p .new _ 0).state = _
  rw [transition_zero hvalid _ rfl]
  show (observe p .new _ 0).state = _
  unfold observe
  rw [hviolations]
  rfl

theorem instantRecovery_entered :
    stateAt (instantRecovery p) 2 = drilledHalfOpen := by
  have hviolations := collectViolations_zero (positive_of_valid hvalid) none rfl 0
  show (transition p (stateAt (instantRecovery p) 1) _ 0).state = _
  rw [instantRecovery_drilled hvalid, transition_zero hvalid _ (by decide)]
  show (enterHalfOpen p drilled _ _ 0).state = _
  unfold enterHalfOpen
  rw [hviolations]
  rfl

theorem instantRecovery_closes (hwindow : p.halfOpenObservationMs < 0) :
    (transition p drilledHalfOpen
      (.close healthy (.operator ⟨"audit", "operator", "drill", "checked"⟩)) 0).state.status
      = .closed := by
  have hviolations := collectViolations_zero (positive_of_valid hvalid) none rfl 0
  have hhalf : drilledHalfOpen.status = .halfOpen := rfl
  have hquiet : halfOpenViolations p drilledHalfOpen healthy.input 0 = .ok [] := by
    show (collectViolations p { manualTrigger := none } 0 >>= _) = _
    rw [hviolations]
    rfl
  have hfinish : (finishClose p drilledHalfOpen
      (.operator ⟨"audit", "operator", "drill", "checked"⟩) 0).state.status = .closed := by
    unfold finishClose
    show (if 0 - 0 < p.halfOpenObservationMs then _ else _ : CircuitBreakerOutcome).state.status = _
    rw [if_neg (by omega)]
    rfl
  rw [transition_zero hvalid _ (by decide)]
  show (close p drilledHalfOpen _ _ 0).state.status = _
  unfold close
  rw [hhalf, hquiet]
  exact hfinish

theorem not_closesLate (hwindow : p.halfOpenObservationMs < 0) : ¬ ClosesLate p := by
  intro hlate
  obtain ⟨j, e, -, he, -, hopened, hlt⟩ := hlate (instantRecovery p)
    (fun c hc => by
      simp only [instantRecovery, List.mem_cons, List.not_mem_nil, or_false] at hc
      rcases hc with rfl | rfl | rfl <;> rfl)
    2 _ rfl (by rw [instantRecovery_entered hvalid]; rfl)
    (by
      rw [instantRecovery_entered hvalid]
      exact instantRecovery_closes hvalid hwindow)
  -- the entry and the close happened at the same time
  rw [instantRecovery_entered hvalid] at hopened
  have hzero : e.serverNowMs = 0 := (Option.some.inj hopened).symm
  rw [hzero] at hlt
  exact absurd hlt (Int.lt_irrefl 0)

end

theorem closesLate_of_window {p : CircuitBreakerPolicy} (hwindow : 0 < p.halfOpenObservationMs) :
    ClosesLate p := by
  intro calls hp k c hc hhalf hclosed
  have heffect := call_effect c (stateAt calls k)
  rw [hp c (List.mem_of_getElem? hc)] at heffect
  obtain ⟨at', hopened, hobserved⟩ := closes_of_status heffect hhalf hclosed
  obtain ⟨j, e, readiness, input, triggeredAtMs, hist⟩ := halfOpenSince_run hp k hhalf
  obtain rfl : at' = e.serverNowMs := Option.some.inj (hopened.symm.trans hist.halfOpened)
  exact ⟨j, e, hist.earlier, hist.call, hist.entered, hist.halfOpened, by omega⟩

/-- The policy check lets a negative observation window pass, and exactly under such a policy a
breaker can close at the very time it became half-open; a positive window makes every close late, in
runs from any state. -/
theorem close_after_half_open_iff (p : CircuitBreakerPolicy) (hp : AcceptedPolicy p) :
    (ClosesLate p ↔ 0 < p.halfOpenObservationMs) ∧
    (0 < p.halfOpenObservationMs → ∀ s r t, s.status = .halfOpen →
      (transition p s r t).state.status = .closed →
      ∃ halfOpenedAtMs, s.halfOpenedAtMs = some halfOpenedAtMs ∧ halfOpenedAtMs < t) := by
  have hvalid := hp.valid
  refine ⟨⟨fun hlate => ?_, closesLate_of_window⟩, fun hwindow s r t hhalf hclosed => ?_⟩
  · have hnonzero := (positive_of_valid hvalid).window
    by_contra hnot
    exact not_closesLate hvalid (by omega) hlate
  · obtain ⟨at', hopened, hobserved⟩ := closes_of_status (transition_effect p s r t) hhalf hclosed
    exact ⟨at', hopened, by omega⟩

def patientPolicy : CircuitBreakerPolicy := { impatientPolicy with halfOpenObservationMs := 1000 }

theorem close_after_half_open_patient : ClosesLate patientPolicy :=
  (close_after_half_open_iff patientPolicy (accepted_of_valid rfl)).1.mpr (by decide)

/-- the impatient policy is accepted, and its breaker opens, is half-open and closes at time zero -/
theorem impatientPolicy_closes_at_once :
    AcceptedPolicy impatientPolicy ∧ impatientPolicy.halfOpenObservationMs = -1 ∧
      (stateAt (instantRecovery impatientPolicy) 2).halfOpenedAtMs = some 0 ∧
      (stateAt (instantRecovery impatientPolicy) 3).status = .closed ∧
      ¬ ClosesLate impatientPolicy :=
  ⟨accepted_of_valid rfl, rfl, by decide, by decide, not_closesLate rfl (by decide)⟩

end Sinan.Breaker
