import Sinan.Gateway.Turns

/-!
# The queued writer: over whole runs

Whatever the producers, the task, the transport and the clock do, and in whatever order their
operations fall: the sequence numbers are accepted in order, without a gap; every completion is resolved at
most once, and exactly once when everything has returned; and what is reported as unsent has had no
byte passed to the transport, unless the task was cancelled while it wrote.

A close from another thread may come between the last look at the phase and the request that is
taken next, so one more request may be handed over after a close.  None of its bytes is passed: the
fence of the write looks at the phase again.
-/

namespace Sinan.Gateway

open Lib Protocol

/-! ## the invariant -/

structure WriterInvariant (p : WriterPool) : Prop where
  ledger : ∀ c, accounted c p.shared + p.total (WriterOp.held c) = entered c p.shared.issued
  consecutive : Consecutive p.shared
  ending : 2 * p.total WriterOp.live + p.total WriterOp.ending ≤ 2
  silent : Silent p.shared.log
  stopped : Stopped p.shared.log → p.total WriterOp.live = 0
  retired : p.shared.closed = true → p.total WriterOp.live = 0
  shut : Shut p.shared
  late : p.shared.phase = .closed → lateAccepted p.shared.log + p.total WriterOp.accepting ≤ 1
  early : p.shared.phase ≠ .closed → lateAccepted p.shared.log = 0
  placed : ∀ op, p.Running op → op.Placed p.shared.log
  passed : ∀ c, .passed c ∈ p.shared.log →
    HandedOpen c p.shared.log ∧ (1 ≤ p.total (WriterOp.writing c) ∨ Sealed c p.shared.log)
  written : ∀ c, .completed c .written ∈ p.shared.log → .wrote c ∈ p.shared.log
  closing : p.shared.phase = .closed ∨ 1 ≤ p.total WriterOp.closing
  failing : p.shared.closed = true ∨ 1 ≤ p.total WriterOp.failing
  emptied : Emptied p.shared
  drained : p.shared.receiverClosed = true →
    p.shared.channel = [] ∨ 1 ≤ p.total WriterOp.draining

theorem running_new {config : WriterConfig} {op : WriterOp}
    (h : (WriterPool.new config).Running op) : op = .spawned := by
  obtain ⟨stack, hstack, hop⟩ := h
  rw [List.mem_singleton.mp hstack] at hop
  exact List.mem_singleton.mp hop

theorem invariant_new (config : WriterConfig) : WriterInvariant (WriterPool.new config) where
  ledger _ := rfl
  consecutive := ⟨0, rfl, rfl⟩
  ending := le_rfl
  silent := trivial
  stopped h := by rcases h with h | h <;> cases h
  retired h := by cases h
  shut := ⟨⟨fun h => (by cases h), fun h => (by cases h)⟩, fun h => (by cases h)⟩
  late h := by cases h
  early _ := rfl
  placed op hop := by
    rw [running_new hop]
    trivial
  passed c h := by cases h
  written c h := by cases h
  closing := .inr le_rfl
  failing := .inr le_rfl
  emptied h := by cases h
  drained h := by cases h

theorem invariant_call {p : WriterPool} (h : WriterInvariant p) (call : WriterCall) :
    WriterInvariant (p.spawn [call.op]) := by
  have hlive : (p.spawn [call.op]).total WriterOp.live = p.total WriterOp.live :=
    Pool.total_spawn_zero (by cases call <;> rfl)
  exact
    { h with
      ledger := fun c => by
        rw [Pool.total_spawn_zero (by cases call <;> rfl)]
        exact h.ledger c
      ending := by
        rw [hlive, Pool.total_spawn_zero (by cases call <;> rfl)]
        exact h.ending
      stopped := fun hstopped => hlive.trans (h.stopped hstopped)
      retired := fun hclosed => hlive.trans (h.retired hclosed)
      late := fun hclosed => by
        rw [Pool.total_spawn_zero (by cases call <;> rfl)]
        exact h.late hclosed
      placed := fun op hop => by
        rcases Pool.running_spawn hop with rfl | hold
        · cases call <;> trivial
        · exact h.placed op hold
      passed := fun c hc => by
        rw [Pool.total_spawn_zero (by cases call <;> rfl)]
        exact h.passed c hc
      closing := h.closing.imp_right fun hclosing => hclosing.trans (Pool.le_total_spawn ..)
      failing := h.failing.imp_right fun hfailing => hfailing.trans (Pool.le_total_spawn ..)
      drained := fun hclosed => (h.drained hclosed).imp_right fun hdrain => hdrain.trans (Pool.le_total_spawn ..) }

section
variable {config : WriterConfig} {p p' : WriterPool} {op : WriterOp} {t : WriterTurn}

theorem ending_turn (hinv : WriterInvariant p) (h : p.Turned (turn config) t op p') :
    2 * p'.total WriterOp.live + p'.total WriterOp.ending ≤ 2 := by
  have hlive := h.total WriterOp.live
  have hlive_le := turn_live config op t p.shared
  have hlive_op : op.live ≤ p.total WriterOp.live := Pool.le_total h.running
  have hends := h.total WriterOp.ending
  have hends_le := turn_ending config op t p.shared
  have hbefore := hinv.ending
  omega

theorem stopped_turn (hinv : WriterInvariant p) (h : p.Turned (turn config) t op p')
    (hstopped : Stopped p'.shared.log) : p'.total WriterOp.live = 0 := by
  have hlive := h.total WriterOp.live
  have hlive_le := turn_live config op t p.shared
  have hlive_op : op.live ≤ p.total WriterOp.live := Pool.le_total h.running
  rw [h.shared] at hstopped
  rcases turn_stopped config op t p.shared hstopped with hold | ⟨hnone, hone⟩
  · have hzero := hinv.stopped hold
    omega
  · have hbefore := hinv.ending
    omega

theorem retired_turn (hinv : WriterInvariant p) (h : p.Turned (turn config) t op p')
    (hretired : p'.shared.closed = true) : p'.total WriterOp.live = 0 := by
  have hlive := h.total WriterOp.live
  have hlive_le := turn_live config op t p.shared
  have hlive_op : op.live ≤ p.total WriterOp.live := Pool.le_total h.running
  rw [h.shared] at hretired
  rcases turn_failed config op t p.shared hretired with hold | hone
  · have hzero := hinv.retired hold
    omega
  · -- the end of the task runs, so no live operation is left
    have hends : op.ending ≤ p.total WriterOp.ending := Pool.le_total h.running
    have hbefore := hinv.ending
    omega

theorem late_turn (hinv : WriterInvariant p) (h : p.Turned (turn config) t op p') :
    lateAccepted p'.shared.log + p'.total WriterOp.accepting ≤ 1 := by
  have haccepting := h.total WriterOp.accepting
  by_cases hbefore : p.shared.phase = .closed
  · have hturn := turn_late config op t p.shared hbefore
    have hlate := hinv.late hbefore
    rw [h.shared]
    omega
  · -- the writer is closed by this turn: what may still accept is the one live operation
    have hearly := turn_early config op t p.shared
      (fun hmem => hbefore (hinv.shut.closed.mp hmem)) (hinv.early hbefore)
    have hle := Pool.total_le accepting_le_live p'
    have hending := ending_turn hinv h
    rw [h.shared, hearly]
    omega

theorem passed_turn (hinv : WriterInvariant p) (h : p.Turned (turn config) t op p')
    (hlog : p.shared.log <:+ p'.shared.log) {c : Nat} (hc : .passed c ∈ p'.shared.log) :
    HandedOpen c p'.shared.log ∧
      (1 ≤ p'.total (WriterOp.writing c) ∨ Sealed c p'.shared.log) := by
  have hwriting := h.total (WriterOp.writing c)
  have hturn := turn_writing config op t p.shared c
  rw [← h.shared] at hturn
  rw [h.shared] at hc
  rcases turn_passed config op t p.shared hc with hold | ⟨transfer, created, rfl, hsame⟩
  · obtain ⟨hopen, hstate⟩ := hinv.passed c hold
    exact ⟨hopen.mono hlog, (h.carried hturn (fun hsettled => hsettled.mono hlog) hstate.symm).symm⟩
  · have hop := hinv.placed _ h.running
    refine ⟨hsame ▸ HandedOpen.mono hop hlog, ?_⟩
    have hone : WriterOp.writing c (.pollWrite transfer created) = 1 := if_pos hsame
    have hle : WriterOp.writing c (.pollWrite transfer created) ≤ p.total _ := Pool.le_total h.running
    refine hturn.imp_left fun hweight => ?_
    omega

theorem invariant_turn (hinv : WriterInvariant p) (h : p.Turned (turn config) t op p') :
    WriterInvariant p' := by
  have hgrows : Grows p.shared p'.shared := h.shared ▸ turn_grows config op t p.shared
  have hlog := hgrows.log
  have hlive_op : op.live ≤ p.total WriterOp.live := Pool.le_total h.running
  exact
    { ledger := fun c => by
        have hbefore := hinv.ledger c
        have hturn := turn_ledger config op t p.shared c
        have htotal := h.total (WriterOp.held c)
        rw [h.shared]
        omega
      consecutive := h.shared ▸ turn_consecutive config op t p.shared hinv.consecutive
      ending := ending_turn hinv h
      silent := by
        rw [h.shared]
        refine turn_silent config op t p.shared hinv.silent fun hop hstopped => ?_
        have hzero := hinv.stopped hstopped
        omega
      stopped := stopped_turn hinv h
      retired := retired_turn hinv h
      shut := h.shared ▸ turn_shut config op t p.shared hinv.shut
      late := fun _ => late_turn hinv h
      early := fun hphase => by
        have hbefore : p.shared.phase ≠ .closed := fun hbefore => hphase (hgrows.phase hbefore)
        rw [h.shared]
        exact turn_early config op t p.shared (fun hmem => hbefore (hinv.shut.closed.mp hmem))
          (hinv.early hbefore)
      placed := fun op' hop => by
        rcases h.ran hop with hnew | hold
        · rw [h.shared]
          exact turn_placed config op t p.shared hinv.shut.closed (hinv.placed op h.running) op' hnew
        · exact (hinv.placed op' hold).mono hlog
      passed := fun c hc => passed_turn hinv h hlog hc
      written := fun c hc => by
        rw [h.shared] at hc
        rcases turn_written config op t p.shared hc with hold | ⟨r, rfl, hsame⟩
        · exact hlog.subset (hinv.written c hold)
        · exact hlog.subset (hsame ▸ hinv.placed _ h.running rfl)
      closing := h.carried (h.shared ▸ turn_closing config op t p.shared) hgrows.phase hinv.closing
      failing := h.carried (h.shared ▸ turn_failing config op t p.shared) hgrows.retired
        hinv.failing
      emptied := by
        rw [h.shared]
        refine turn_emptied config op t p.shared hinv.emptied fun hretired => ?_
        have hzero := hinv.retired hretired
        omega
      drained := fun hreceiver => by
        have hdraining := h.total WriterOp.draining
        rw [h.shared] at hreceiver ⊢
        rcases turn_drained config op t p.shared hreceiver with ⟨hold, hkept, hstep⟩ | hone
        · exact h.carried hstep hkept (hinv.drained hold)
        · have hle : WriterOp.draining op ≤ p.total WriterOp.draining := Pool.le_total h.running
          exact .inr (by omega) }

end

theorem invariant_run (config : WriterConfig) (moves : List WriterMove) :
    WriterInvariant (writerRun config moves) :=
  Pool.run_keeps (fun _ call h => invariant_call h call) (fun _ _ _ _ hturned h => invariant_turn h hturned)
    (invariant_new config) moves

/-! ## order -/

/-- In every run the sequence numbers are accepted in order, from one and without a gap; none is
accepted after a duplicate, stale or out-of-bound one or after a gap that timed out, and at most one
after a close.  Bytes are passed only of a request that was handed over before every close. -/
theorem writer_hands_over_in_order (config : WriterConfig) (moves : List WriterMove) :
    (∃ n, (acceptedSequences (writerRun config moves).shared.log).reverse = List.range' 1 n) ∧
    (∀ later c n skip earlier,
      (writerRun config moves).shared.log = later ++ .accepted c n skip :: earlier →
        .violated ∉ earlier ∧ .gapTimedOut ∉ earlier) ∧
    lateAccepted (writerRun config moves).shared.log ≤ 1 ∧
    (∀ c, .passed c ∈ (writerRun config moves).shared.log →
      HandedOpen c (writerRun config moves).shared.log) := by
  have h := invariant_run config moves
  refine ⟨?_, ?_, ?_, fun c hc => (h.passed c hc).1⟩
  · obtain ⟨n, -, hlog⟩ := h.consecutive
    exact ⟨n, by rw [hlog, List.reverse_reverse]⟩
  · intro later c n skip earlier hlog
    have hsilent := h.silent
    rw [hlog] at hsilent
    exact not_or.mp (Along.at hsilent c n skip rfl)
  · by_cases hclosed : (writerRun config moves).shared.phase = .closed
    · have hlate := h.late hclosed
      omega
    · have hearly := h.early hclosed
      omega

/-! ## completion -/

theorem completions_of_mem {c : Nat} {outcome : SinkWriteOutcome} {log : List WriterEvent}
    (h : .completed c outcome ∈ log) : 1 ≤ completions c log := by
  have hone : WriterEvent.completes c (.completed c outcome) = 1 := if_pos rfl
  exact hone ▸ Pool.le_weight h

theorem completions_of_ne {c : Nat} {outcome outcome' : SinkWriteOutcome} {log : List WriterEvent}
    (h : .completed c outcome ∈ log) (h' : .completed c outcome' ∈ log)
    (hne : outcome ≠ outcome') : 2 ≤ completions c log := by
  obtain ⟨later, earlier, rfl⟩ := List.append_of_mem h
  have hone : WriterEvent.completes c (.completed c outcome) = 1 := if_pos rfl
  have hother : 1 ≤ completions c later ∨ 1 ≤ completions c earlier := by
    rcases List.mem_append.mp h' with hin | hin
    · exact .inl (completions_of_mem hin)
    · rcases List.mem_cons.mp hin with heq | hin
      · cases heq
        exact absurd rfl hne
      · exact .inr (completions_of_mem hin)
  unfold completions at hother ⊢
  rw [weight_append, weight_cons]
  omega

theorem WriterInvariant.quiet_empty {p : WriterPool} (h : WriterInvariant p) (hquiet : p.Quiet) :
    p.shared.bootstrap = [] ∧ p.shared.channel = [] ∧ p.shared.reordered = [] := by
  have hzero : ∀ m : WriterOp → Nat, p.total m = 0 := fun _ => Pool.total_quiet hquiet
  have hclosed := h.closing.resolve_right (by rw [hzero]; decide)
  have hretired := h.failing.resolve_right (by rw [hzero]; decide)
  obtain ⟨hreceiver, hreordered⟩ := h.emptied hretired
  exact ⟨h.shut.bootstrap hclosed, (h.drained hreceiver).resolve_right (by rw [hzero]; decide),
    hreordered⟩

theorem WriterInvariant.quiet_queued {p : WriterPool} (h : WriterInvariant p) (hquiet : p.Quiet)
    (m : QueuedWrite → Nat) : queued m p.shared = 0 := by
  obtain ⟨hbootstrap, hchannel, hreordered⟩ := h.quiet_empty hquiet
  unfold queued
  rw [hbootstrap, hchannel, hreordered]
  rfl

theorem WriterInvariant.completions_le {p : WriterPool} (h : WriterInvariant p) (c : Nat) :
    completions c p.shared.log + p.total (WriterOp.held c) ≤ 1 := by
  have hledger := h.ledger c
  have hentered : entered c p.shared.issued ≤ 1 := by
    unfold entered
    split <;> decide
  unfold accounted at hledger
  omega

theorem WriterInvariant.quiet_completed {p : WriterPool} (h : WriterInvariant p)
    (hquiet : p.Quiet) {c : Nat} (hc : c < p.shared.issued) : completions c p.shared.log = 1 := by
  have hledger := h.ledger c
  rw [Pool.total_quiet hquiet] at hledger
  unfold accounted entered at hledger
  rw [h.quiet_queued hquiet, if_pos hc] at hledger
  exact hledger

/-- In every run a completion is resolved at most once, and exactly once when the calls and the task
have returned.  It is resolved as written only after the transport reported a success; and when it is
resolved as not written or as refused, no byte of the request has been passed to the transport, unless
the task was cancelled while it wrote the request. -/
theorem writer_completes_truthfully (config : WriterConfig) (moves : List WriterMove) (c : Nat) :
    completions c (writerRun config moves).shared.log ≤ 1 ∧
    ((writerRun config moves).Quiet → c < (writerRun config moves).shared.issued →
      completions c (writerRun config moves).shared.log = 1) ∧
    (.completed c .written ∈ (writerRun config moves).shared.log →
      .wrote c ∈ (writerRun config moves).shared.log) ∧
    (∀ outcome, .completed c outcome ∈ (writerRun config moves).shared.log →
      outcome.unsent = true → .passed c ∈ (writerRun config moves).shared.log →
        .cancelled c ∈ (writerRun config moves).shared.log) := by
  have h := invariant_run config moves
  refine ⟨(Nat.le_add_right _ _).trans (h.completions_le c), fun hquiet => h.quiet_completed hquiet,
    h.written c, ?_⟩
  intro outcome hcompleted hunsent hpassed
  have hle := h.completions_le c
  rcases (h.passed c hpassed).2 with hwriting | ⟨outcome', hsent, hcompleted'⟩ | hcancelled
  · -- a request that is being written has not been completed
    have hheld := Pool.total_le (writing_le_held c) (writerRun config moves)
    have hone := completions_of_mem hcompleted
    omega
  · have hne : outcome ≠ outcome' := by
      rintro rfl
      rw [hunsent] at hsent
      cases hsent
    have htwo := completions_of_ne hcompleted hcompleted' hne
    omega
  · exact hcancelled

end Sinan.Gateway
