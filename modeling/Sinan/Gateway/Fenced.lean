import Sinan.Gateway.Handle

/-!
# The handle of a live session: the fence is linearized against writes

In every interleaving of writes, skips and fences the word is what the log says: the fence bit when the
handle has been fenced, and the permits that are out.  So the permits never carry into the fence bit and
giving one back never borrows from it; a fence is never undone; no write is admitted after it; and the
sink is closed once.
-/

set_option linter.unusedSectionVars false

namespace Sinan.Gateway

open Lib

variable {P : Type} [DecidableEq P]

/-! ## the word -/

section
variable {log : List (HandleEvent P)}

theorem isFenced_wordOf (h : permitsOut log < 2 ^ 63) :
    isFenced (wordOf log) = decide (.fenced ∈ log) := by
  unfold isFenced wordOf
  rw [fencedBit_eq, Bool.eq_iff_iff, bne_iff_ne]
  exact flagged_and_flagBit _ h

theorem full_wordOf (h : permitsOut log < 2 ^ 63) :
    wordOf log &&& writerMask = writerMask ↔ permitsOut log = 2 ^ 63 - 1 := by
  unfold wordOf
  rw [writerMask_eq]
  exact flagged_and_mask _ h

theorem mem_fenced_cons {event : HandleEvent P} (h : event ≠ .fenced) :
    decide (.fenced ∈ event :: log) = decide (.fenced ∈ log) := by
  rw [Bool.eq_iff_iff, decide_eq_true_eq, decide_eq_true_eq, List.mem_cons]
  exact or_iff_right (Ne.symm h)

theorem wordOf_cons {sessionId : SessionId} {event : HandleEvent P}
    (hbalance : log.countP HandleEvent.isReleased ≤ log.countP HandleEvent.isAdmitted)
    (hfew : permitsOut log < 2 ^ 63) (h : event.Fits sessionId log) :
    wordOf (event :: log) = event.apply (wordOf log) ∧ permitsOut (event :: log) < 2 ^ 63 := by
  have hcount : permitsOut (event :: log) =
      (log.countP HandleEvent.isAdmitted + if event.isAdmitted = true then 1 else 0) -
        (log.countP HandleEvent.isReleased + if event.isReleased = true then 1 else 0) := by
    unfold permitsOut
    rw [List.countP_cons, List.countP_cons]
  have hpermits : permitsOut log + log.countP HandleEvent.isReleased =
      log.countP HandleEvent.isAdmitted := Nat.sub_add_cancel hbalance
  unfold wordOf
  cases event
  case admitted frame =>
    have hmore : permitsOut (.admitted frame :: log) = permitsOut log + 1 := by
      simp only [HandleEvent.isAdmitted, HandleEvent.isReleased, if_true, Bool.false_eq_true, if_false] at hcount
      omega
    have hroom := h.2.2
    rw [hmore, mem_fenced_cons (by intro he; cases he)]
    exact ⟨(flagged_add_one _ _).symm, by omega⟩
  case released frame =>
    have hless : permitsOut (.released frame :: log) + 1 = permitsOut log := by
      have hout : 0 < permitsOut log := h
      simp only [HandleEvent.isAdmitted, HandleEvent.isReleased, if_true, Bool.false_eq_true, if_false] at hcount
      omega
    rw [← hless, mem_fenced_cons (by intro he; cases he)]
    exact ⟨(flagged_sub_one _ _).symm, by omega⟩
  all_goals
    have hsame : permitsOut (_ :: log) = permitsOut log := hcount
    rw [hsame]
    refine ⟨?_, hfew⟩
  case fenced =>
    rw [decide_eq_true List.mem_cons_self]
    show _ = flagged 63 _ _ ||| fencedBit
    rw [fencedBit_eq, flagged_or_flagBit _ hfew]
  all_goals exact congrArg (flagged 63 · _) (mem_fenced_cons (by intro he; cases he))

end

/-! ## one operation -/

section
variable (sessionId : SessionId) (op : HandleOp P) (input : HandleInput) (s : HandleState P)

attribute [simp] handleTurn dropHandle HandleOp.holds HandleOp.handing HandleOp.closing
  HandleEvent.isAdmitted HandleEvent.isReleased

theorem handleTurn_permits :
    (handleTurn sessionId op input s).1.log.countP HandleEvent.isReleased +
        weight HandleOp.holds (handleTurn sessionId op input s).2 +
        s.log.countP HandleEvent.isAdmitted =
      (handleTurn sessionId op input s).1.log.countP HandleEvent.isAdmitted +
        s.log.countP HandleEvent.isReleased + op.holds := by
  cases input with
  | drop => cases op <;> simp <;> omega
  | poll spurious outcome =>
    cases op <;> simp only [handleTurn, pollHandle, HandleState.record] <;> (repeat' split) <;>
      simp [List.countP_cons] <;>
      omega

theorem handleTurn_handing (frame : OutboundFrame P) :
    (handleTurn sessionId op input s).1.log.count (.handed frame) +
        weight (HandleOp.handing frame) (handleTurn sessionId op input s).2 +
        s.log.count (.admitted frame) =
      (handleTurn sessionId op input s).1.log.count (.admitted frame) +
        s.log.count (.handed frame) + op.handing frame := by
  cases input with
  | drop => cases op <;> simp <;> omega
  | poll spurious outcome =>
    cases op <;> simp only [handleTurn, pollHandle, HandleState.record] <;> (repeat' split) <;>
      simp [List.count_cons] <;> omega

theorem handleTurn_closing :
    (handleTurn sessionId op input s).1.log.count .closed +
        weight HandleOp.closing (handleTurn sessionId op input s).2 + s.log.count .fenced =
      (handleTurn sessionId op input s).1.log.count .fenced + s.log.count .closed +
        op.closing := by
  cases input with
  | drop => cases op <;> simp <;> omega
  | poll spurious outcome =>
    cases op <;> simp only [handleTurn, pollHandle, HandleState.record] <;> (repeat' split) <;>
      simp <;> omega

variable {sessionId op input s}

theorem handleTurn_sound (hfew : permitsOut s.log < 2 ^ 63) (hword : s.word = wordOf s.log)
    (hop : op.Sound sessionId s.log) :
    ∀ op' ∈ (handleTurn sessionId op input s).2, op'.Sound sessionId s.log := by
  have hnow : ∀ frame : OutboundFrame P, frame.sessionId = sessionId →
      (HandleOp.exchange frame s.word).Sound sessionId s.log :=
    fun _ hown => ⟨hown, s.log, List.suffix_refl _, hfew, hword⟩
  cases input with
  | drop => cases op <;> simp [HandleOp.Sound] <;> exact hop
  | poll spurious outcome =>
    cases op
    case load frame =>
      intro op' hop'
      rw [List.mem_singleton.mp hop']
      exact hnow frame hop
    case exchange frame current =>
      simp only [handleTurn, pollHandle]
      (repeat' split) <;> intro op' hop' <;> rw [List.mem_singleton.mp hop']
      · trivial
      · exact hop.1
      · exact hnow frame hop.1
    all_goals
      simp only [handleTurn, pollHandle]
      (repeat' split) <;> simp_all [HandleOp.Sound]

theorem HandleOp.Sound.mono {log log' : List (HandleEvent P)} (h : op.Sound sessionId log)
    (hlog : log <:+ log') : op.Sound sessionId log' := by
  cases op
  case exchange =>
    obtain ⟨hown, earlier, hsuffix, hrest⟩ := h
    exact ⟨hown, earlier, hsuffix.trans hlog, hrest⟩
  all_goals exact h

/-- an operation does nothing to the handle, or records one event, which fits the log, and does to the
word what the event says -/
theorem handleTurn_records (input : HandleInput) (hword : s.word = wordOf s.log)
    (hfew : permitsOut s.log < 2 ^ 63)
    (hheld : s.log.countP HandleEvent.isReleased + op.holds ≤
      s.log.countP HandleEvent.isAdmitted) (hsound : op.Sound sessionId s.log)
    (hhanding : ∀ frame, s.log.count (.handed frame) + op.handing frame ≤
      s.log.count (.admitted frame))
    (hclosing : s.log.count .closed + op.closing ≤ s.log.count .fenced)
    (honce : s.log.count .fenced ≤ 1) :
    (handleTurn sessionId op input s).1 = s ∨ ∃ event : HandleEvent P,
      (handleTurn sessionId op input s).1 = { word := event.apply s.word, log := event :: s.log } ∧
        event.Fits sessionId s.log := by
  cases input with
  | drop => cases op <;> exact .inl rfl
  | poll spurious outcome =>
    cases op
    case write frame =>
      simp only [handleTurn, pollHandle]
      split
      case isTrue hdiffers => exact .inr ⟨.mismatched frame, rfl, hdiffers⟩
      case isFalse => exact .inl rfl
    case exchange frame current =>
      obtain ⟨hown, earlier, hsuffix, hearlier, rfl⟩ := hsound
      simp only [handleTurn, pollHandle]
      simp only [isFenced_wordOf hearlier, full_wordOf hearlier]
      split
      · rename_i hrefused
        refine .inr ⟨.refused frame, rfl, hown, ?_⟩
        rcases hrefused with hfenced | hfull
        · exact .inl (hsuffix.subset (of_decide_eq_true hfenced))
        · exact .inr ⟨earlier, hsuffix, hfull⟩
      · split
        · rename_i hopen hmatch
          -- the word is still the one that was looked at
          rw [not_or, ← isFenced_wordOf hearlier, ← full_wordOf hearlier, ← hmatch.1, hword,
            isFenced_wordOf hfew, full_wordOf hfew, decide_eq_true_eq] at hopen
          refine .inr ⟨.admitted frame, ?_, hown, hopen.1, by omega⟩
          rw [← hmatch.1]
          rfl
        · exact .inl rfl
    case sinkWrite frame =>
      have hmore := hhanding frame
      simp only [HandleOp.handing, if_true] at hmore
      exact .inr ⟨.handed frame, rfl, hmore⟩
    case dropPermit frame => exact .inr ⟨.released frame, rfl, Nat.sub_pos_of_lt hheld⟩
    case fence =>
      simp only [handleTurn, pollHandle]
      split
      · exact .inl rfl
      · rename_i hopen
        rw [hword, isFenced_wordOf hfew, decide_eq_true_eq] at hopen
        exact .inr ⟨.fenced, rfl, hopen⟩
    case sinkClose =>
      have hmore : s.log.count .closed + 1 ≤ s.log.count .fenced := hclosing
      exact .inr ⟨.closed, rfl, List.count_pos_iff.mp (by omega), List.count_eq_zero.mp (by omega)⟩
    case answer frame result => exact .inr ⟨.answered frame result, rfl, trivial⟩
    case sinkSkip sequence => exact .inr ⟨.skipped sequence, rfl, trivial⟩
    case awaitWrite =>
      simp only [handleTurn, pollHandle]
      split <;> exact .inl rfl
    all_goals exact .inl rfl

end

/-! ## every run -/

structure HandleInvariant (sessionId : SessionId) (p : HandlePool P) : Prop where
  word : p.shared.word = wordOf p.shared.log
  few : permitsOut p.shared.log < 2 ^ 63
  permits : p.shared.log.countP HandleEvent.isReleased + p.total HandleOp.holds =
    p.shared.log.countP HandleEvent.isAdmitted
  handing : ∀ frame, p.shared.log.count (.handed frame) + p.total (HandleOp.handing frame) =
    p.shared.log.count (.admitted frame)
  closing : p.shared.log.count .closed + p.total HandleOp.closing = p.shared.log.count .fenced
  sound : ∀ op, p.Running op → op.Sound sessionId p.shared.log
  fits : Along (HandleEvent.Fits sessionId) p.shared.log

variable {sessionId : SessionId} {p : HandlePool P}

theorem fenced_once {log : List (HandleEvent P)} (h : Along (HandleEvent.Fits sessionId) log) :
    log.count .fenced ≤ 1 := by
  induction log with
  | nil => exact Nat.zero_le 1
  | cons event older ih =>
    by_cases he : event = .fenced
    · subst he
      rw [List.count_cons_self, List.count_eq_zero.mpr h.1]
    · rw [List.count_cons_of_ne he]
      exact ih h.2

theorem handleInvariant_new :
    HandleInvariant sessionId ({ shared := .new, threads := [] } : HandlePool P) where
  word := rfl
  few := Nat.two_pow_pos 63
  permits := rfl
  handing _ := rfl
  closing := rfl
  sound := by
    rintro op ⟨stack, hstack, -⟩
    cases hstack
  fits := trivial

theorem handleInvariant_call (h : HandleInvariant sessionId p) (call : HandleCall P) :
    HandleInvariant sessionId (p.spawn [call.op]) := by
  refine ⟨h.word, h.few, ?_, ?_, ?_, ?_, h.fits⟩
  · rw [Pool.total_spawn_zero (by cases call <;> rfl)]
    exact h.permits
  · intro frame
    rw [Pool.total_spawn_zero (by cases call <;> rfl)]
    exact h.handing frame
  · rw [Pool.total_spawn_zero (by cases call <;> rfl)]
    exact h.closing
  · intro op hop
    rcases Pool.running_spawn hop with rfl | hold
    · cases call <;> trivial
    · exact h.sound op hold

theorem HandleInvariant.records (h : HandleInvariant sessionId p) {op : HandleOp P}
    (hrunning : p.Running op) (input : HandleInput) :
    (handleTurn sessionId op input p.shared).1.word =
        wordOf (handleTurn sessionId op input p.shared).1.log ∧
      permitsOut (handleTurn sessionId op input p.shared).1.log < 2 ^ 63 ∧
      Along (HandleEvent.Fits sessionId) (handleTurn sessionId op input p.shared).1.log ∧
      p.shared.log <:+ (handleTurn sessionId op input p.shared).1.log := by
  -- what the running operation holds is part of the sums
  have hheld : ∀ (m : HandleOp P → Nat) {done ordered : Nat}, done + p.total m = ordered →
      done + m op ≤ ordered := fun m _ _ hsum =>
    le_of_le_of_eq (Nat.add_le_add_left (Pool.le_total hrunning) _) hsum
  rcases handleTurn_records input h.word h.few (hheld _ h.permits) (h.sound op hrunning)
    (fun frame => hheld _ (h.handing frame)) (hheld _ h.closing)
    (fenced_once h.fits) with hsame | ⟨event, hevent, hfits⟩
  · rw [hsame]
    exact ⟨h.word, h.few, h.fits, List.suffix_refl _⟩
  · obtain ⟨hword, hfew⟩ := wordOf_cons (le_of_add_le_left h.permits.le) h.few hfits
    rw [hevent]
    refine ⟨?_, hfew, ⟨hfits, h.fits⟩, List.suffix_cons _ _⟩
    rw [hword, ← h.word]

theorem handleInvariant_turn {p' : HandlePool P} {op : HandleOp P} {input : HandleInput}
    (h : HandleInvariant sessionId p) (hturned : p.Turned (handleTurn sessionId) input op p') :
    HandleInvariant sessionId p' := by
  obtain ⟨hword, hfew, hfits, hlog⟩ := h.records hturned.running input
  rw [← hturned.shared] at hword hfew hfits hlog
  refine ⟨hword, hfew, ?_, fun frame => ?_, ?_, fun op' hop' => ?_, hfits⟩
  · have hbefore := h.permits
    have hturn := handleTurn_permits sessionId op input p.shared
    have htotal := hturned.total HandleOp.holds
    rw [← hturned.shared] at hturn
    omega
  · have hbefore := h.handing frame
    have hturn := handleTurn_handing sessionId op input p.shared frame
    have htotal := hturned.total (HandleOp.handing frame)
    rw [← hturned.shared] at hturn
    omega
  · have hbefore := h.closing
    have hturn := handleTurn_closing sessionId op input p.shared
    have htotal := hturned.total HandleOp.closing
    rw [← hturned.shared] at hturn
    omega
  · refine HandleOp.Sound.mono ?_ hlog
    rcases hturned.ran hop' with hnew | hold
    · exact handleTurn_sound h.few h.word (h.sound op hturned.running) op' hnew
    · exact h.sound op' hold

theorem handleInvariant_run (sessionId : SessionId) (moves : List (HandleMove P)) :
    HandleInvariant sessionId (handleRun sessionId moves) :=
  Pool.run_keeps (P := HandleInvariant sessionId) (fun _ call h => handleInvariant_call h call)
    (fun _ _ _ _ hturned h => handleInvariant_turn h hturned) handleInvariant_new moves

/-! ## a fence is carried out -/

theorem isFenced_iff (h : HandleInvariant sessionId p) :
    isFenced p.shared.word = true ↔ .fenced ∈ p.shared.log := by
  rw [h.word, isFenced_wordOf h.few]
  exact decide_eq_true_iff

/-- the handle is fenced, or a fence is still to run -/
def FenceAsked (p : HandlePool P) : Prop :=
  .fenced ∈ p.shared.log ∨ 1 ≤ p.total HandleOp.fencing

theorem handleTurn_fencing (sessionId : SessionId) (op : HandleOp P) (input : HandleInput)
    {s : HandleState P} (hfenced : isFenced s.word = true ↔ .fenced ∈ s.log) :
    .fenced ∈ (handleTurn sessionId op input s).1.log ∨
      op.fencing ≤ weight HandleOp.fencing (handleTurn sessionId op input s).2 := by
  cases op
  case fence =>
    cases input with
    | drop => exact .inr le_rfl
    | poll spurious outcome =>
      simp only [handleTurn, pollHandle]
      split
      · rename_i hset
        exact .inl (hfenced.mp hset)
      · exact .inl List.mem_cons_self
  all_goals exact .inr (Nat.zero_le _)

theorem fenceAsked_run (sessionId : SessionId) {moves : List (HandleMove P)}
    (hcalled : .call .fence ∈ moves) : FenceAsked (handleRun sessionId moves) := by
  refine Pool.run_called (P := HandleInvariant sessionId) (fun _ call h => handleInvariant_call h call)
    (fun _ _ _ _ hturned h => handleInvariant_turn h hturned) ?_ ?_ handleInvariant_new ?_ hcalled
  · intro p call _ hasked
    exact hasked.imp_right fun hone => hone.trans (Pool.le_total_spawn ..)
  · intro p p' op input hturned h hasked
    refine hturned.carried (P := HandleEvent.fenced ∈ p.shared.log) ?_ (fun hfenced => ?_) hasked
    · rw [hturned.shared]
      exact (handleTurn_fencing sessionId op input (isFenced_iff h)).symm
    · rw [hturned.shared]
      exact (h.records hturned.running input).2.2.2.subset hfenced
  · intro p _
    refine .inr ?_
    rw [Pool.total_spawn]
    exact Nat.le_add_left _ _

/-- In every run of writes, skips and fences of a handle, whatever order their accesses fall in, the
word is the fence bit and the number of permits that are out, which stays below the bit; and the log is
lawful (`HandleEvent.Fits`): among other things a permit is given out only to a frame of the session and
only before the fence, and the sink is closed at most once.  When the calls have returned all permits
are back, every admitted frame has been handed to the sink, and a handle that was told to fence is
fenced and has closed its sink. -/
theorem fence_linearizes (sessionId : SessionId) (moves : List (HandleMove P)) :
    (handleRun sessionId moves).shared.word = wordOf (handleRun sessionId moves).shared.log ∧
    permitsOut (handleRun sessionId moves).shared.log < 2 ^ 63 ∧
    permitsOut (handleRun sessionId moves).shared.log =
      (handleRun sessionId moves).total HandleOp.holds ∧
    (isFenced (handleRun sessionId moves).shared.word = true ↔
      .fenced ∈ (handleRun sessionId moves).shared.log) ∧
    Along (HandleEvent.Fits sessionId) (handleRun sessionId moves).shared.log ∧
    (∀ newer older, (handleRun sessionId moves).shared.log = newer ++ .fenced :: older →
      ∀ frame, .admitted frame ∉ newer) ∧
    ((handleRun sessionId moves).Quiet →
      permitsOut (handleRun sessionId moves).shared.log = 0 ∧
      (∀ frame, (handleRun sessionId moves).shared.log.count (.handed frame) =
        (handleRun sessionId moves).shared.log.count (.admitted frame)) ∧
      (.call .fence ∈ moves →
        .fenced ∈ (handleRun sessionId moves).shared.log ∧
        (handleRun sessionId moves).shared.log.count .closed = 1)) := by
  have h := handleInvariant_run sessionId moves
  have hpermits : permitsOut (handleRun sessionId moves).shared.log =
      (handleRun sessionId moves).total HandleOp.holds := Nat.sub_eq_of_eq_add' h.permits.symm
  refine ⟨h.word, h.few, hpermits, isFenced_iff h, h.fits, ?_, ?_⟩
  · intro newer older hlog frame hmem
    obtain ⟨later, between, rfl⟩ := List.append_of_mem hmem
    have hfits := h.fits
    rw [hlog, List.append_assoc, List.cons_append] at hfits
    exact hfits.at.2.1 (List.mem_append_right _ List.mem_cons_self)
  · intro hquiet
    refine ⟨hpermits.trans (Pool.total_quiet hquiet), fun frame => ?_, fun hcalled => ?_⟩
    · have hsum := h.handing frame
      rw [Pool.total_quiet hquiet, Nat.add_zero] at hsum
      exact hsum
    · have hfenced : .fenced ∈ (handleRun sessionId moves).shared.log := by
        refine (fenceAsked_run sessionId hcalled).resolve_right fun hone => ?_
        rw [Pool.total_quiet hquiet] at hone
        exact absurd hone (by decide)
      refine ⟨hfenced, ?_⟩
      have hclosing := h.closing
      rw [Pool.total_quiet hquiet, Nat.add_zero] at hclosing
      have honce := fenced_once h.fits
      have hpos := List.count_pos_iff.mpr hfenced
      exact hclosing.trans (le_antisymm honce hpos)

end Sinan.Gateway
