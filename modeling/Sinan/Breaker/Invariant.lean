import Sinan.Breaker.Effect
import Sinan.Lib.Run

/-!
# Circuit breaker: every reached state can be restored

`Sound` is the invariant: what `validate_restored_state` asks of a state besides the bound on its
epoch and the comparison of its timestamps with the server clock.  Every effect keeps it, so it
holds in every state of every run, whatever the policies, requests and clocks of the calls; and
a sound state restores to itself.
-/

namespace Sinan.Breaker

open Lib CircuitBreakerOutcome

/-! ## the timestamps of a state, one by one -/

variable {s : CircuitBreakerState} {P : Int → Prop} {o : Option Int} {t : Int}

theorem forall_timestamps :
    (∀ x ∈ s.timestamps, P x) ↔ (∀ x, s.triggeredAtMs = some x → P x) ∧
      (∀ x, s.incidentEvidenceClearedAtMs = some x → P x) ∧
      (∀ x, s.halfOpenedAtMs = some x → P x) ∧ (∀ x, s.resetAtMs = some x → P x) := by
  simp only [CircuitBreakerState.timestamps, List.reduceOption_mem_iff, List.mem_cons,
    List.not_mem_nil, or_false, eq_comm (b := s.triggeredAtMs),
    eq_comm (b := s.incidentEvidenceClearedAtMs), eq_comm (b := s.halfOpenedAtMs),
    eq_comm (b := s.resetAtMs)]
  constructor
  · intro h
    exact ⟨fun x hx => h x (.inl hx), fun x hx => h x (.inr (.inl hx)),
      fun x hx => h x (.inr (.inr (.inl hx))), fun x hx => h x (.inr (.inr (.inr hx)))⟩
  · rintro ⟨h1, h2, h3, h4⟩ x (hx | hx | hx | hx)
    · exact h1 x hx
    · exact h2 x hx
    · exact h3 x hx
    · exact h4 x hx

theorem forall_eq_some (ho : o = some t) (ht : P t) :
    ∀ x, o = some x → P x := by
  intro x hx
  obtain rfl : t = x := Option.some.inj (ho.symm.trans hx)
  exact ht

theorem forall_eq_none (ho : o = none) :
    ∀ x, o = some x → P x :=
  fun x hx => absurd (ho.symm.trans hx) (by simp)

/-! ## the checks of a restore -/

variable {now : Int}

@[simp] theorem breaks_ok {c : Prop} [Decidable c] {i : CircuitBreakerSnapshotInvariant} {u : Unit} :
    breaks c i = .ok u ↔ ¬ c := reject_ok

theorem checkTimestamp_ok {entry : CircuitBreakerSnapshotTimestamp × Option Int} :
    checkTimestamp now entry = .ok () ↔ ∀ x, entry.2 = some x → 0 ≤ x ∧ x ≤ now := by
  unfold checkTimestamp
  split
  case h_1 h => exact ⟨fun _ => forall_eq_none h, fun _ => rfl⟩
  case h_2 t h =>
    simp only [bind_ok, breaks_ok, reject_ok, exists_unit, h, Option.some.injEq,
      forall_eq', Int.not_lt]

theorem checkTimestamps_ok :
    each s.timestampFields (checkTimestamp now) = .ok () ↔
      (∀ x ∈ s.timestamps, 0 ≤ x) ∧ s.notAfter now := by
  rw [each_ok, CircuitBreakerState.notAfter, forall_timestamps, forall_timestamps]
  simp only [CircuitBreakerState.timestampFields, List.mem_cons, List.not_mem_nil, or_false,
    forall_eq_or_imp, forall_eq, checkTimestamp_ok]
  constructor
  · rintro ⟨h1, h2, h3, h4⟩
    exact ⟨⟨fun x hx => (h1 x hx).1, fun x hx => (h2 x hx).1, fun x hx => (h3 x hx).1,
        fun x hx => (h4 x hx).1⟩,
      fun x hx => (h1 x hx).2, fun x hx => (h2 x hx).2, fun x hx => (h3 x hx).2,
      fun x hx => (h4 x hx).2⟩
  · rintro ⟨⟨h1, h2, h3, h4⟩, g1, g2, g3, g4⟩
    exact ⟨fun x hx => ⟨h1 x hx, g1 x hx⟩, fun x hx => ⟨h2 x hx, g2 x hx⟩,
      fun x hx => ⟨h3 x hx, g3 x hx⟩, fun x hx => ⟨h4 x hx, g4 x hx⟩⟩

theorem checkOrder_ok {earlier later : Option Int} :
    checkOrder earlier later = .ok () ↔
      ∀ e l, earlier = some e → later = some l → e ≤ l := by
  cases earlier with
  | none => exact ⟨fun _ _ _ h => (by cases h), fun _ => rfl⟩
  | some e =>
    cases later with
    | none => exact ⟨fun _ _ _ _ h => (by cases h), fun _ => rfl⟩
    | some l =>
      show breaks (l < e) .timestampOrderInvalid = .ok () ↔ _
      rw [breaks_ok]
      constructor
      · intro h e' l' he hl
        obtain rfl := Option.some.inj he
        obtain rfl := Option.some.inj hl
        omega
      · intro h
        have := h e l rfl rfl
        omega

theorem checkEvidence_ok {seen evidence : List CircuitBreakerIncidentEvidence} :
    checkEvidence seen evidence = .ok () ↔ evidence.Nodup ∧ (∀ e ∈ evidence, e ∉ seen) ∧
      ∀ e ∈ evidence, incidentEvidenceHasBlankText e = false := by
  induction evidence generalizing seen with
  | nil =>
    exact ⟨fun _ => ⟨List.nodup_nil, fun _ h => absurd h List.not_mem_nil,
      fun _ h => absurd h List.not_mem_nil⟩, fun _ => rfl⟩
  | cons e rest ih =>
    unfold checkEvidence
    simp only [bind_ok, breaks_ok, exists_unit, ih, List.nodup_cons, List.mem_cons,
      forall_eq_or_imp, List.mem_append, List.not_mem_nil, or_false, not_or, Bool.not_eq_true]
    constructor
    · rintro ⟨hnew, htext, hnodup, hseen, hrest⟩
      exact ⟨⟨fun hmem => (hseen e hmem).2 rfl, hnodup⟩, ⟨hnew, fun x hx => (hseen x hx).1⟩,
        htext, hrest⟩
    · rintro ⟨⟨hnot, hnodup⟩, ⟨hnew, hseen⟩, htext, hrest⟩
      refine ⟨hnew, htext, hnodup, fun x hx => ⟨hseen x hx, ?_⟩, hrest⟩
      rintro rfl
      exact hnot hx

/-! ## the invariant -/

/-- the cross-field conditions of a breaker state -/
structure Sound (s : CircuitBreakerState) : Prop where
  nonneg : ∀ x ∈ s.timestamps, 0 ≤ x
  trigger : s.triggeredAtMs.isSome = s.triggeredBy.isSome
  epoch : s.recoveryEpoch = 0 ↔ s.triggeredAtMs = none
  reason : s.status = .closed ↔ s.reason = .ok
  resetPair : s.resetAtMs.isSome = s.resetBy.isSome
  resetNamed : blankOpt s.resetBy = false
  statusFields : checkStatusFields s = .ok ()
  exclusive : ¬ (s.lastIncidentFingerprint.isSome ∧ s.incidentEvidenceClearedAtMs.isSome)
  evidence : s.status ≠ .closed →
    s.lastIncidentFingerprint.isSome ∨ s.incidentEvidenceClearedAtMs.isSome
  sourceNamed : operatorBlank s.triggeredBy = false
  fingerprint : checkFingerprint s = .ok ()
  clearedOrder : checkOrder s.triggeredAtMs s.incidentEvidenceClearedAtMs = .ok ()
  halfOpenOrder : checkOrder s.triggeredAtMs s.halfOpenedAtMs = .ok ()
  resetOrder : checkOrder s.triggeredAtMs s.resetAtMs = .ok ()
  clearedHalfOpenOrder : checkOrder s.incidentEvidenceClearedAtMs s.halfOpenedAtMs = .ok ()
  clearedResetOrder : checkOrder s.incidentEvidenceClearedAtMs s.resetAtMs = .ok ()

theorem isActive_iff (s : CircuitBreakerStatus) : s.isActive = true ↔ s ≠ .closed := by
  cases s <;> decide

/-- `validate_restored_state` accepts exactly the sound states that are not exhausted and carry
nothing from the future -/
theorem validateRestoredState_ok :
    validateRestoredState s now = .ok () ↔
      s.recoveryEpoch ≠ u64Max ∧ s.notAfter now ∧ Sound s := by
  unfold validateRestoredState
  simp only [bind_ok, exists_unit, breaks_ok, checkTimestamps_ok]
  constructor
  · rintro ⟨hmax, ⟨hnonneg, hnow⟩, htrigger, hzero, hpos, hreason, hpair, hreset, hfields, hexcl,
      hevidence, hsource, hfp, h1, h2, h3, h4, h5⟩
    refine ⟨hmax, hnow, hnonneg, not_not.mp htrigger, ?_, not_not.mp hreason, not_not.mp hpair,
      Bool.not_eq_true _ ▸ hreset, hfields, hexcl, ?_, Bool.not_eq_true _ ▸ hsource, hfp,
      h1, h2, h3, h4, h5⟩
    · constructor
      · intro h
        cases ht : s.triggeredAtMs with
        | none => rfl
        | some t => exact absurd ⟨h, by rw [ht]; rfl⟩ hzero
      · intro h
        by_contra hne
        exact hpos ⟨Nat.pos_of_ne_zero hne, by rw [h]; rfl⟩
    · intro hactive
      by_contra hnone
      refine hevidence ⟨(isActive_iff _).mpr hactive, ?_, ?_⟩
      · rw [← Option.not_isSome, Bool.not_eq_true']
        exact Bool.eq_false_iff.mpr fun h => hnone (.inl h)
      · rw [← Option.not_isSome, Bool.not_eq_true']
        exact Bool.eq_false_iff.mpr fun h => hnone (.inr h)
  · rintro ⟨hmax, hnow, hs⟩
    refine ⟨hmax, ⟨hs.nonneg, hnow⟩, not_not.mpr hs.trigger, ?_, ?_, not_not.mpr hs.reason,
      not_not.mpr hs.resetPair, by rw [hs.resetNamed]; exact Bool.false_ne_true, hs.statusFields,
      hs.exclusive, ?_, by rw [hs.sourceNamed]; exact Bool.false_ne_true, hs.fingerprint,
      hs.clearedOrder, hs.halfOpenOrder, hs.resetOrder, hs.clearedHalfOpenOrder,
      hs.clearedResetOrder⟩
    · rintro ⟨h, hsome⟩
      rw [hs.epoch.mp h] at hsome
      cases hsome
    · rintro ⟨h, hnone⟩
      have := hs.epoch.mpr (Option.isNone_iff_eq_none.mp hnone)
      omega
    · rintro ⟨hactive, hfp, hcleared⟩
      rcases hs.evidence ((isActive_iff _).mp hactive) with h | h
      · rw [Option.isNone_iff_eq_none.mp hfp] at h
        cases h
      · rw [Option.isNone_iff_eq_none.mp hcleared] at h
        cases h

theorem sound_new : Sound .new :=
  (validateRestoredState_ok.mp (show validateRestoredState .new 0 = .ok () from rfl)).2.2

/-! ## what the status says about the recovery fields -/

theorem Sound.of_open (h : Sound s) (hopen : s.status = .open) :
    s.halfOpenedAtMs = none ∧ s.halfOpenDailyLossBaselineBps = none ∧
      s.halfOpenDrawdownBaselineBps = none ∧ s.resetAtMs = none ∧ s.resetBy = none := by
  have hf := h.statusFields
  have hp := h.resetPair
  simp only [checkStatusFields, hopen, bind_ok, exists_unit,
    CircuitBreakerState.resetPairPresent, CircuitBreakerState.halfOpenFields] at hf
  cases h1 : s.halfOpenedAtMs <;> cases h2 : s.halfOpenDailyLossBaselineBps <;>
    cases h3 : s.halfOpenDrawdownBaselineBps <;> cases h4 : s.resetAtMs <;>
    cases h5 : s.resetBy <;> simp_all

theorem Sound.of_halfOpen (h : Sound s) (hhalf : s.status = .halfOpen) :
    s.halfOpenedAtMs.isSome ∧ s.halfOpenDailyLossBaselineBps.isSome ∧
      s.halfOpenDrawdownBaselineBps.isSome ∧ s.resetAtMs = none ∧ s.resetBy = none := by
  have hf := h.statusFields
  have hp := h.resetPair
  simp only [checkStatusFields, hhalf, bind_ok, exists_unit,
    CircuitBreakerState.resetPairPresent, CircuitBreakerState.halfOpenFields] at hf
  cases h1 : s.halfOpenedAtMs <;> cases h2 : s.halfOpenDailyLossBaselineBps <;>
    cases h3 : s.halfOpenDrawdownBaselineBps <;> cases h4 : s.resetAtMs <;>
    cases h5 : s.resetBy <;> simp_all

/-! ## every effect keeps the invariant -/

variable {resetBy : String}

theorem checkOrder_none_right (o : Option Int) : checkOrder o none = .ok () := by
  cases o <;> rfl

theorem checkOrder_last (h : ∀ x, o = some x → x ≤ t) :
    checkOrder o (some t) = .ok () :=
  checkOrder_ok.mpr fun e _ he hl => Option.some.inj hl ▸ h e he

theorem checkFingerprint_explains {fp reason source} (hfp : s.lastIncidentFingerprint = some fp)
    (hreason : s.reason = reason) (hsource : s.triggeredBy = some source)
    (h : Explains fp reason source) :
    checkFingerprint s = .ok () := by
  obtain ⟨e, rest, rfl, hr, hs⟩ := h.primary
  have hev : checkEvidence [] (e :: rest) = .ok () :=
    checkEvidence_ok.mpr ⟨h.nodup, fun _ _ => List.not_mem_nil, h.text⟩
  have hpr : checkPrimary s e = .ok () := by
    simp only [checkPrimary, bind_ok, exists_unit, breaks_ok, not_not]
    exact ⟨hr.trans hreason.symm, hsource.trans (congrArg some hs.symm)⟩
  unfold checkFingerprint
  rw [hfp]
  simp only [bind_ok, exists_unit, hev, true_and]
  split
  · exact hpr
  · rfl

theorem sound_incidentState {epoch : Nat} {reason source fp} (hepoch : epoch ≠ 0)
    (hex : Explains fp reason source) (h0 : 0 ≤ t) :
    Sound (incidentState s epoch reason source fp t) where
  nonneg := forall_timestamps.mpr ⟨forall_eq_some rfl h0, forall_eq_none rfl, forall_eq_none rfl,
    forall_eq_none rfl⟩
  trigger := rfl
  epoch := ⟨fun h => absurd h hepoch, fun h => (by cases h)⟩
  reason := ⟨fun h => (by cases h), fun h => absurd h hex.reason_ne_ok⟩
  resetPair := rfl
  resetNamed := rfl
  statusFields := rfl
  exclusive := fun h => (by cases h.2)
  evidence := fun _ => .inl rfl
  sourceNamed := hex.source_named
  fingerprint := checkFingerprint_explains rfl rfl rfl hex
  clearedOrder := rfl
  halfOpenOrder := rfl
  resetOrder := rfl
  clearedHalfOpenOrder := rfl
  clearedResetOrder := rfl

theorem sound_cleared (h : Sound s) (hopen : s.status = .open) (h0 : 0 ≤ t) (hn : s.notAfter t) :
    Sound { s with lastIncidentFingerprint := none, incidentEvidenceClearedAtMs := some t } := by
  obtain ⟨hhalf, hdaily, hdrawdown, hreset, hby⟩ := h.of_open hopen
  have hnn := forall_timestamps.mp h.nonneg
  have hle := forall_timestamps.mp hn
  exact
    { nonneg := forall_timestamps.mpr ⟨hnn.1, forall_eq_some rfl h0, hnn.2.2⟩
      trigger := h.trigger
      epoch := h.epoch
      reason := h.reason
      resetPair := h.resetPair
      resetNamed := h.resetNamed
      statusFields := by
        simp only [checkStatusFields, hopen, CircuitBreakerState.resetPairPresent,
          CircuitBreakerState.halfOpenFields, hhalf, hdaily, hdrawdown, hreset, hby]
        rfl
      exclusive := fun hboth => (by cases hboth.1)
      evidence := fun _ => .inr rfl
      sourceNamed := h.sourceNamed
      fingerprint := rfl
      clearedOrder := checkOrder_last hle.1
      halfOpenOrder := h.halfOpenOrder
      resetOrder := h.resetOrder
      clearedHalfOpenOrder := by rw [hhalf]; exact checkOrder_none_right _
      clearedResetOrder := by rw [hreset]; exact checkOrder_none_right _ }

theorem sound_admitted {daily drawdown : Nat} (h : Sound s) (hopen : s.status = .open) (h0 : 0 ≤ t)
    (hn : s.notAfter t) :
    Sound { s with
      status := .halfOpen
      halfOpenedAtMs := some t
      halfOpenDailyLossBaselineBps := some daily
      halfOpenDrawdownBaselineBps := some drawdown } := by
  obtain ⟨-, -, -, hreset, hby⟩ := h.of_open hopen
  have hactive : s.status ≠ .closed := by rw [hopen]; exact fun h => (by cases h)
  have hnn := forall_timestamps.mp h.nonneg
  have hle := forall_timestamps.mp hn
  have hfp := h.fingerprint
  exact
    { nonneg := forall_timestamps.mpr ⟨hnn.1, hnn.2.1, forall_eq_some rfl h0, hnn.2.2.2⟩
      trigger := h.trigger
      epoch := h.epoch
      reason := ⟨fun h' => (by cases h'), fun h' => absurd (h.reason.mpr h') hactive⟩
      resetPair := h.resetPair
      resetNamed := h.resetNamed
      statusFields := by
        simp only [checkStatusFields, CircuitBreakerState.resetPairPresent,
          CircuitBreakerState.halfOpenFields, hreset, hby]
        rfl
      exclusive := h.exclusive
      evidence := fun _ => h.evidence hactive
      sourceNamed := h.sourceNamed
      fingerprint := by
        -- both statuses are active, so the same checks are made on the same evidence
        unfold checkFingerprint checkPrimary at hfp ⊢
        rw [hopen] at hfp
        exact hfp
      clearedOrder := h.clearedOrder
      halfOpenOrder := checkOrder_last hle.1
      resetOrder := h.resetOrder
      clearedHalfOpenOrder := checkOrder_last hle.2.1
      clearedResetOrder := h.clearedResetOrder }

theorem checkFingerprint_closed (h : checkFingerprint s = .ok ()) :
    checkFingerprint (closedState s resetBy t) = .ok () := by
  have hsame : (closedState s resetBy t).lastIncidentFingerprint = s.lastIncidentFingerprint := rfl
  unfold checkFingerprint at h ⊢
  rw [hsame]
  cases hfp : s.lastIncidentFingerprint with
  | none => rfl
  | some fp =>
    rw [hfp] at h
    cases fp with
    | nil => cases h
    | cons primary rest =>
      simp only [bind_ok, exists_unit] at h ⊢
      exact ⟨h.1, rfl⟩

theorem sound_closed (h : Sound s) (hepoch : s.recoveryEpoch ≠ 0) (hnamed : blank resetBy = false)
    (h0 : 0 ≤ t) (hn : s.notAfter t) : Sound (closedState s resetBy t) := by
  have hnn := forall_timestamps.mp h.nonneg
  have hle := forall_timestamps.mp hn
  exact
    { nonneg := forall_timestamps.mpr ⟨hnn.1, hnn.2.1, forall_eq_none rfl, forall_eq_some rfl h0⟩
      trigger := h.trigger
      epoch := h.epoch
      reason := ⟨fun _ => rfl, fun _ => rfl⟩
      resetPair := rfl
      resetNamed := hnamed
      statusFields := by
        show (do breaks _ _; if s.recoveryEpoch = 0 then _ else breaks _ _) = _
        rw [if_neg hepoch]
        rfl
      exclusive := h.exclusive
      evidence := fun hne => absurd rfl hne
      sourceNamed := h.sourceNamed
      fingerprint := checkFingerprint_closed h.fingerprint
      clearedOrder := h.clearedOrder
      halfOpenOrder := checkOrder_none_right _
      resetOrder := checkOrder_last hle.1
      clearedHalfOpenOrder := checkOrder_none_right _
      clearedResetOrder := checkOrder_last hle.2.1 }

theorem sound_counted (h : Sound s) (n : Nat) :
    Sound { s with blockedIntentCount := n } := by
  obtain ⟨h1, h2, h3, h4, h5, h6, h7, h8, h9, h10, h11, h12, h13, h14, h15, h16⟩ := h
  exact ⟨h1, h2, h3, h4, h5, h6, h7, h8, h9, h10, h11, h12, h13, h14, h15, h16⟩

/-- The invariant of a run.  `Sound` alone is not enough: it admits a half-open state of epoch
zero, which has no incident behind it and which no run from `new` reaches. -/
structure Recoverable (s : CircuitBreakerState) : Prop where
  sound : Sound s
  incident : s.status = .halfOpen → s.recoveryEpoch ≠ 0

theorem recoverable_effect {p : CircuitBreakerPolicy} {r : TransitionRequest}
    {o : CircuitBreakerOutcome} (he : Effect p s r t o) (hs : Recoverable s) :
    Recoverable o.state := by
  cases he with
  | stays state => rw [state]; exact hs
  | opens h =>
    obtain ⟨epoch, reason, source, fp, atMs, hstate, hex, h0, -, hepoch⟩ := h.state
    rw [hstate]
    have hne : epoch ≠ 0 := by
      unfold u64Max at hepoch
      omega
    exact ⟨sound_incidentState hne hex h0, fun h => (by cases h)⟩
  | clears fp status explained nonneg after state =>
    rw [state]
    exact ⟨sound_cleared hs.sound status nonneg after, hs.incident⟩
  | admits readiness input triggeredAtMs request status triggered epoch refreshed nonneg after
      state =>
    rw [state]
    refine ⟨sound_admitted hs.sound status nonneg after, fun _ hzero => ?_⟩
    have hnone : s.triggeredAtMs = none := hs.sound.epoch.mp hzero
    rw [hnone] at triggered
    cases triggered
  | closes halfOpenedAtMs resetBy status halfOpened observed named quiet nonneg after state =>
    rw [state]
    exact ⟨sound_closed hs.sound (hs.incident status) named nonneg after, fun h => (by cases h)⟩
  | counts observedTotal request larger state =>
    rw [state]
    exact ⟨sound_counted hs.sound _, hs.incident⟩

/-! ## runs -/

/-- one call of `transition`, with the policy and the clock it is made under -/
structure Call where
  policy : CircuitBreakerPolicy
  request : TransitionRequest
  serverNowMs : Int
  deriving DecidableEq

def Call.outcome (c : Call) (s : CircuitBreakerState) : CircuitBreakerOutcome :=
  transition c.policy s c.request c.serverNowMs

def step (s : CircuitBreakerState) (c : Call) : CircuitBreakerState := (c.outcome s).state

theorem call_effect (c : Call) (s : CircuitBreakerState) :
    Effect c.policy s c.request c.serverNowMs (c.outcome s) :=
  transition_effect _ _ _ _

theorem recoverable_run (hs : Recoverable s) (calls : List Call) (k : Nat) :
    Recoverable (before step s calls k) :=
  before_invariant step s calls hs (fun s c h => recoverable_effect (call_effect c s) h) k

/-- the state passes the validation and its own snapshot restores to exactly this state -/
def RestoresAt (s : CircuitBreakerState) (now : Int) : Prop :=
  validateRestoredState s now = .ok () ∧
    restoreCircuitBreakerSnapshotV1 s.durableSnapshotV1 now = unchanged s

theorem restored_durableSnapshotV1 (s : CircuitBreakerState) : s.durableSnapshotV1.restored = s :=
  rfl

theorem restoresAt_iff (h0 : 0 ≤ now) :
    RestoresAt s now ↔ validateRestoredState s now = .ok () := by
  refine ⟨fun h => h.1, fun h => ⟨h, ?_⟩⟩
  unfold restoreCircuitBreakerSnapshotV1
  rw [if_neg (Int.not_lt.mpr h0), if_neg (fun hne => hne rfl), restored_durableSnapshotV1, h]

/-- in every run from `s`, every state with a free epoch restores, whenever the clock is not behind
its timestamps -/
def EveryStateRestores (s : CircuitBreakerState) : Prop :=
  ∀ (calls : List Call) (k : Nat) (now : Int),
    (before step s calls k).recoveryEpoch < u64Max → 0 ≤ now →
    (∀ x ∈ (before step s calls k).timestamps, x ≤ now) → RestoresAt (before step s calls k) now

theorem everyStateRestores_of_recoverable (h : Recoverable s) :
    EveryStateRestores s := by
  intro calls k now hepoch h0 hnow
  rw [restoresAt_iff h0]
  exact validateRestoredState_ok.mpr ⟨Nat.ne_of_lt hepoch, hnow, (recoverable_run h calls k).sound⟩

/-! ## the half-open state without an incident -/

/-- a policy under which a half-open breaker closes at once: the validation refuses a zero
observation window, not a negative one -/
def impatientPolicy : CircuitBreakerPolicy where
  maxDailyRealizedLossBps := 1
  maxEquityDrawdownBps := 1
  maxConsecutiveBrokerRejections := 1
  maxConsecutiveCommandFailures := 1
  maxTimeSyncUnhealthyMs := 0
  maxConsecutiveSnapshotStale := 0
  maxConsecutiveSymbolMetadataStale := 0
  halfOpenObservationMs := -1
  autoReset := true

def healthy : RecoveryHealth where
  clockHealthy := true
  stateStoreHealthy := true
  newHardRiskViolation := false
  input := {}

def healthyClose (t : Int) : Call where
  policy := impatientPolicy
  request := .close healthy .automatic
  serverNowMs := t

theorem healthyClose_closes (hs : Sound s) (hhalf : s.status = .halfOpen)
    (ht : s.halfOpenedAtMs = some t) (h0 : 0 ≤ t) (hn : s.notAfter t) :
    step s (healthyClose t) = closedState s "AUTOMATIC" t := by
  obtain ⟨-, hdaily, hdrawdown, -, -⟩ := hs.of_halfOpen hhalf
  obtain ⟨daily, hdaily⟩ := Option.isSome_iff_exists.mp hdaily
  obtain ⟨drawdown, hdrawdown⟩ := Option.isSome_iff_exists.mp hdrawdown
  have hnone : halfOpenViolations impatientPolicy s healthy.input t = .ok [] := by
    show filterHalfOpenViolations s [] {} = .ok []
    unfold filterHalfOpenViolations
    rw [hdaily, hdrawdown]
    show Except.ok (pushIf (0 > daily) _ ++ pushIf (0 > drawdown) _ ++ []) = _
    rw [decide_eq_false (Nat.not_lt_zero daily), decide_eq_false (Nat.not_lt_zero drawdown)]
    rfl
  have hfinish : (finishClose impatientPolicy s .automatic t).state
      = closedState s "AUTOMATIC" t := by
    unfold finishClose
    rw [ht]
    show (if t - t < -1 then _ else _ : CircuitBreakerOutcome).state = _
    rw [if_neg (by omega)]
    rfl
  have hclose : (close impatientPolicy s healthy .automatic t).state
      = closedState s "AUTOMATIC" t := by
    unfold close
    rw [hhalf, hnone]
    exact hfinish
  show (transition impatientPolicy s (.close healthy .automatic) t).state = _
  unfold transition
  rw [if_neg (Int.not_lt.mpr h0), show impatientPolicy.validate = .ok () from rfl]
  cases hlatest : s.latestTransitionAtMs with
  | none => exact hclose
  | some latest =>
    have hle := hn latest (List.max?_eq_some_iff.mp hlatest).1
    show (if t < latest then _ else _ : CircuitBreakerOutcome).state = _
    rw [if_neg (Int.not_lt.mpr hle)]
    exact hclose

theorem closed_without_incident_refused (hzero : s.recoveryEpoch = 0) :
    validateRestoredState (closedState s resetBy t) now ≠ .ok () := by
  intro h
  have hf := (validateRestoredState_ok.mp h).2.2.statusFields
  simp only [checkStatusFields, closedState, hzero, if_true, bind_ok, exists_unit, breaks_ok] at hf
  exact hf.2 (.inr (.inr (.inr rfl)))

theorem not_everyStateRestores (hs : Sound s) (hhalf : s.status = .halfOpen)
    (hzero : s.recoveryEpoch = 0) : ¬ EveryStateRestores s := by
  intro hall
  obtain ⟨t, ht⟩ := Option.isSome_iff_exists.mp (hs.of_halfOpen hhalf).1
  have hreset := (hs.of_halfOpen hhalf).2.2.2.1
  have hnn := forall_timestamps.mp hs.nonneg
  have hn : s.notAfter t := by
    refine forall_timestamps.mpr ⟨forall_eq_none (hs.epoch.mp hzero), fun x hx => ?_,
      forall_eq_some ht (Int.le_refl t), forall_eq_none hreset⟩
    exact checkOrder_ok.mp hs.clearedHalfOpenOrder x t hx ht
  have h0 : 0 ≤ t := hnn.2.2.1 t ht
  have hrun : before step s [healthyClose t] 1 = closedState s "AUTOMATIC" t :=
    (before_succ step s rfl).trans (healthyClose_closes hs hhalf ht h0 hn)
  have hle := forall_timestamps.mp hn
  have hrestores := hall [healthyClose t] 1 t
    (by rw [hrun]; show s.recoveryEpoch < u64Max; rw [hzero]; decide) h0
    (by
      rw [hrun]
      exact forall_timestamps.mpr ⟨hle.1, hle.2.1, forall_eq_none rfl,
        forall_eq_some rfl (Int.le_refl t)⟩)
  rw [hrun] at hrestores
  exact closed_without_incident_refused hzero hrestores.1

/-- Every state of every run restores to itself exactly when the start, accepted by the validation,
is not a half-open state of epoch zero. -/
theorem every_state_restores_iff (s : CircuitBreakerState)
    (start : s = .new ∨ ∃ now, validateRestoredState s now = .ok ()) :
    EveryStateRestores s ↔ ¬ (s.status = .halfOpen ∧ s.recoveryEpoch = 0) := by
  have hs : Sound s := by
    rcases start with rfl | ⟨now, h⟩
    · exact sound_new
    · exact (validateRestoredState_ok.mp h).2.2
  constructor
  · rintro hall ⟨hhalf, hzero⟩
    exact not_everyStateRestores hs hhalf hzero hall
  · intro hnot
    exact everyStateRestores_of_recoverable ⟨hs, fun hhalf hzero => hnot ⟨hhalf, hzero⟩⟩

theorem every_state_restores_from_new : EveryStateRestores .new :=
  (every_state_restores_iff .new (.inl rfl)).mpr (by decide)

/-- half-open, with cleared evidence and baselines but no incident -/
def orphanHalfOpen : CircuitBreakerState :=
  { CircuitBreakerState.new with
    status := .halfOpen
    reason := .manualTrigger
    incidentEvidenceClearedAtMs := some 5
    halfOpenedAtMs := some 6
    halfOpenDailyLossBaselineBps := some 0
    halfOpenDrawdownBaselineBps := some 0 }

/-- the validation accepts the orphan, and the state its close leads to does not restore -/
theorem orphanHalfOpen_close_not_restored :
    validateRestoredState orphanHalfOpen 6 = .ok () ∧
      step orphanHalfOpen (healthyClose 6) = closedState orphanHalfOpen "AUTOMATIC" 6 ∧
      validateRestoredState (closedState orphanHalfOpen "AUTOMATIC" 6) 6
        = .error (.invalidSnapshot .initialStateHasIncidentData) ∧
      ¬ EveryStateRestores orphanHalfOpen := by
  refine ⟨by decide, by decide, by decide, ?_⟩
  have haccepted : validateRestoredState orphanHalfOpen 6 = .ok () := by decide
  exact not_everyStateRestores (validateRestoredState_ok.mp haccepted).2.2 rfl rfl

end Sinan.Breaker
