import Sinan.Gateway.Completion

/-!
# The queued writer: permits, and the end of the task

A request holds its permit from the call until it is completed, so the pool of permits bounds both
queues, and every permit is back when everything has returned.

A task that waits has either looked at the phase after the last change, or will be woken: a close first
sets the phase and then notifies.  So the task of a closed writer gets to the shutdown of the transport,
whatever the transport does, and waits for it no longer than the write timeout; every completion is
resolved then.
-/

namespace Sinan.Gateway

open Lib Protocol

/-! ## permits -/

def permitOf (r : QueuedWrite) : Nat := r.permit.toNat

/-- one if the request holds no permit -/
def lacking (r : QueuedWrite) : Nat := 1 - permitOf r

theorem permitOf_lacking (r : QueuedWrite) : permitOf r + lacking r = 1 :=
  Nat.add_sub_of_le (Bool.toNat_le r.permit)

theorem permits_length (l : List QueuedWrite) : weight permitOf l + weight lacking l = l.length := by
  induction l with
  | nil => rfl
  | cons r l ih =>
    have hone := permitOf_lacking r
    rw [weight_cons, weight_cons, List.length_cons]
    omega

/-- the permits an operation holds, or gives back -/
def WriterOp.permits : WriterOp → Nat
  | .trySend r | .complete r _ | .acceptExpected r | .materialize r => permitOf r
  | .selectWrite t | .pollFence t _ | .pollWrite t _ | .pollTimeout t _ | .awaitWrite t _ =>
    permitOf t.request
  | .release => 1
  | _ => 0

/-- what is in the pool or held by a request in a queue -/
def permitsOf (s : WriterState) : Nat := s.admission + queued permitOf s

/-- a request without a permit that is sent -/
def WriterOp.lacking : WriterOp → Nat
  | .trySend r => Gateway.lacking r
  | _ => 0

/-- the requests of the channel and of the reorder buffer that hold no permit -/
def lackingOf (s : WriterState) : Nat := weight lacking s.channel + weight lacking s.reordered

attribute [simp] WriterOp.permits WriterOp.lacking

@[simp] theorem materialize_permitOf (r : QueuedWrite) (encoded : Except String (List UInt8)) :
    permitOf (r.materializeWireBytes encoded).1 = permitOf r :=
  materialize_keeps permitOf (fun _ _ => rfl) r encoded

section
variable (config : WriterConfig) (op : WriterOp) (t : WriterTurn) (s : WriterState)

theorem turn_permits :
    permitsOf (turn config op t s).1 + weight WriterOp.permits (turn config op t s).2 =
      permitsOf s + op.permits := by
  have hmap : ∀ l outcome, weight WriterOp.permits (l.map (WriterOp.complete · outcome)) =
      weight permitOf l := fun _ _ => weight_map _ _ _
  unfold permitsOf queued
  cases t with
  | cancel => cases op <;> simp
  | poll input =>
    cases op
    case tryAcquire | tryAcquireSkip | stageBootstrap | complete =>
      simp only [turn, execute]
      split <;> simp_all [permitOf] <;> omega
    all_goals
      simp only [turn, execute, violation, failed, pollShutdown]
      (repeat' split) <;>
        first
        | -- a request is taken out of the reorder buffer
          have hheld := weight_eraseP (m := permitOf) ‹_ = some _›
          simp only [WriterOp.permits, weight_cons, weight_nil]
          omega
        | simp [-weight_map, *] <;> try omega

theorem turn_lacking :
    lackingOf (turn config op t s).1 + weight WriterOp.lacking (turn config op t s).2 ≤
      lackingOf s + op.lacking := by
  have hmap : ∀ (l : List QueuedWrite) outcome, weight WriterOp.lacking (l.map (WriterOp.complete · outcome)) = 0 :=
    fun l _ => (weight_map _ _ _).trans ((weight_const 0 l).trans (Nat.zero_mul _))
  unfold lackingOf
  cases t with
  | cancel => cases op <;> simp
  | poll input =>
    cases op <;> simp only [turn, execute, violation, failed, pollShutdown] <;> (repeat' split) <;>
      first
      | have hheld := weight_eraseP (m := lacking) ‹_ = some _›
        simp only [WriterOp.lacking, weight_cons, weight_nil]
        omega
      | simp [-weight_map, lacking, permitOf, *] <;> try omega

end

structure PermitInvariant (config : WriterConfig) (p : WriterPool) : Prop where
  counted : permitsOf p.shared + p.total WriterOp.permits = config.queueCapacity
  permitted : lackingOf p.shared + p.total WriterOp.lacking = 0

theorem permit_run (config : WriterConfig) (moves : List WriterMove) :
    PermitInvariant config (writerRun config moves) := by
  refine Pool.run_keeps ?_ ?_ ⟨rfl, rfl⟩ moves
  · intro p call h
    have hnone : WriterOp.permits call.op = 0 ∧ WriterOp.lacking call.op = 0 := by
      cases call <;> exact ⟨rfl, rfl⟩
    refine ⟨?_, ?_⟩
    · rw [Pool.total_spawn, hnone.1]
      exact h.counted
    · rw [Pool.total_spawn, hnone.2]
      exact h.permitted
  · intro p p' op t hturned h
    have hcounted := h.counted
    have hpermits := hturned.total WriterOp.permits
    have hturn := turn_permits config op t p.shared
    have hpermitted := h.permitted
    have hlacking := hturned.total WriterOp.lacking
    have hless := turn_lacking config op t p.shared
    rw [← hturned.shared] at hturn hless
    exact ⟨by omega, by omega⟩

/-- The pool of permits is the only bound that a request ever meets: the channel has room for every
request that is sent, the reorder buffer has room for every request that is received, and when
everything has returned every permit is back in the pool. -/
theorem permits_bound_queues (config : WriterConfig) (moves : List WriterMove) :
    (∀ r, (writerRun config moves).Running (.trySend r) →
      (writerRun config moves).shared.channel.length < config.queueCapacity) ∧
    (∀ created, (writerRun config moves).Running (.recv created) →
      (writerRun config moves).shared.channel ≠ [] →
      (writerRun config moves).shared.reordered.length < config.queueCapacity) ∧
    ((writerRun config moves).Quiet →
      (writerRun config moves).shared.admission = config.queueCapacity) := by
  have h := permit_run config moves
  have hcounted := h.counted
  have hpermitted := h.permitted
  have hchannel := permits_length (writerRun config moves).shared.channel
  have hreordered := permits_length (writerRun config moves).shared.reordered
  unfold permitsOf queued at hcounted
  unfold lackingOf at hpermitted
  refine ⟨fun r hr => ?_, fun created _ hne => ?_, fun hquiet => ?_⟩
  · have hheld : permitOf r ≤ _ := Pool.le_total (m := WriterOp.permits) hr
    have hsent : lacking r ≤ _ := Pool.le_total (m := WriterOp.lacking) hr
    have hone := permitOf_lacking r
    omega
  · have hpos := List.length_pos_iff.mpr hne
    omega
  · have hnone := (invariant_run config moves).quiet_queued hquiet permitOf
    rw [Pool.total_quiet hquiet] at hcounted
    unfold queued at hnone
    omega

/-! ## wake-ups -/

/-- the number of notifications there had been when the future that is polled was created -/
def WriterOp.created : WriterOp → Option Nat
  | .pollStarted created | .awaitStarted created | .pollClosed created | .pollGap created
  | .recv created | .awaitSelect created | .pollFence _ created | .pollWrite _ created
  | .pollTimeout _ created | .awaitWrite _ created => some created
  | _ => none

/-- the same, of a future that has looked at the phase and waits for a notification -/
def WriterOp.waits : WriterOp → Option Nat
  | .awaitStarted created | .pollGap created | .recv created | .awaitSelect created
  | .pollWrite _ created | .pollTimeout _ created | .awaitWrite _ created => some created
  | _ => none

def WriterOp.notifying : WriterOp → Nat
  | .notifyWaiters => 1
  | _ => 0

attribute [simp] WriterOp.created WriterOp.waits WriterOp.notifying

theorem created_of_waits {op : WriterOp} {n : Nat} (h : op.waits = some n) :
    op.created = some n ∧ op.live = 1 ∧ op.notifying = 0 := by
  cases op <;> simp_all

section
variable (config : WriterConfig) (op : WriterOp) (t : WriterTurn) (s : WriterState)

theorem turn_created (h : ∀ n, op.created = some n → n ≤ s.notified) :
    ∀ op' ∈ (turn config op t s).2, ∀ n, op'.created = some n →
      n ≤ (turn config op t s).1.notified := by
  cases t with
  | cancel => cases op <;> simp_all
  | poll input =>
    cases op <;> simp only [turn, execute, violation, failed, pollShutdown] <;> (repeat' split) <;>
      simp_all [or_imp]

theorem turn_waits (hclosed : s.phase = .closed) :
    ∀ op' ∈ (turn config op t s).2, ∀ n, op'.waits = some n → op.waits = some n := by
  have hisClosed : s.isClosed = true := by simp [WriterState.isClosed, hclosed]
  cases t with
  | cancel => cases op <;> simp
  | poll input =>
    cases op <;> simp only [turn, execute, violation, failed, pollShutdown, hisClosed, hclosed, if_true] <;>
      (repeat' split) <;> simp_all [or_imp]

theorem turn_notifying :
    op.notifying ≤ weight WriterOp.notifying (turn config op t s).2 ∨
      s.notified < (turn config op t s).1.notified := by
  cases t with
  | cancel => cases op <;> simp
  | poll input => cases op <;> simp [execute]

theorem turn_closes (hopen : s.phase ≠ .closed)
    (h : (turn config op t s).1.phase = .closed) :
    op.notifying < weight WriterOp.notifying (turn config op t s).2 := by
  revert h
  cases t with
  | cancel => cases op <;> simp_all
  | poll input =>
    cases op <;> simp only [turn, execute, violation] <;> (repeat' split) <;> simp_all

theorem turn_shape : ∀ op' ∈ (turn config op t s).2.dropLast, op'.live = 0 := by
  cases t with
  | cancel => cases op <;> simp
  | poll input =>
    cases op <;> simp only [turn, execute, violation, failed, pollShutdown] <;> (repeat' split) <;> simp

end

/-- every future was created before, the ones that wait in a closed writer are woken or will be, and
only the last operation of a thread belongs to the live part of the task -/
structure WakeInvariant (p : WriterPool) : Prop where
  created : ∀ op, p.Running op → ∀ n, op.created = some n → n ≤ p.shared.notified
  woken : p.shared.phase = .closed → 1 ≤ p.total WriterOp.notifying ∨
    ∀ op, p.Running op → ∀ n, op.waits = some n → n < p.shared.notified
  shape : ∀ stack ∈ p.threads, ∀ op ∈ stack.dropLast, op.live = 0

variable {p : WriterPool}

theorem wake_turn {config : WriterConfig} {p' : WriterPool} {op : WriterOp} {t : WriterTurn}
    (h : WakeInvariant p) (hturned : p.Turned (turn config) t op p') : WakeInvariant p' := by
  have hnotified : p.shared.notified ≤ p'.shared.notified :=
    hturned.shared ▸ (turn_grows config op t p.shared).notified
  refine ⟨fun op' hop' n hn => ?_, fun hclosed => ?_, fun stack hstack => ?_⟩
  · rcases hturned.ran hop' with hnew | hold
    · rw [hturned.shared]
      exact turn_created config op t p.shared (h.created op hturned.running) op' hnew n hn
    · exact (h.created op' hold n hn).trans hnotified
  · have htotal := hturned.total WriterOp.notifying
    by_cases hbefore : p.shared.phase = .closed
    · -- what waits after the turn waited before it
      have hwaited : ∀ op', p'.Running op' → ∀ n, op'.waits = some n →
          ∃ op₀, p.Running op₀ ∧ op₀.waits = some n := by
        intro op' hop' n hn
        rcases hturned.ran hop' with hnew | hold
        · exact ⟨op, hturned.running, turn_waits config op t p.shared hbefore op' hnew n hn⟩
        · exact ⟨op', hold, hn⟩
      rcases h.woken hbefore with hnotifying | hwoken
      · rcases turn_notifying config op t p.shared with hle | hmore
        · exact .inl (by omega)
        · refine .inr fun op' hop' n hn => ?_
          obtain ⟨op₀, hop₀, hn₀⟩ := hwaited op' hop' n hn
          rw [hturned.shared]
          exact Nat.lt_of_le_of_lt (h.created op₀ hop₀ n (created_of_waits hn₀).1) hmore
      · refine .inr fun op' hop' n hn => ?_
        obtain ⟨op₀, hop₀, hn₀⟩ := hwaited op' hop' n hn
        exact Nat.lt_of_lt_of_le (hwoken op₀ hop₀ n hn₀) hnotified
    · rw [hturned.shared] at hclosed
      have hcloses := turn_closes config op t p.shared hbefore hclosed
      exact .inl (by omega)
  · obtain ⟨i, rest, htop, hthreads⟩ := hturned.threads
    rw [hthreads] at hstack
    rcases List.mem_or_eq_of_mem_set hstack with hold | rfl
    · exact h.shape stack hold
    · intro op' hop'
      have hmem := List.mem_of_getElem? htop
      cases rest with
      | nil =>
        rw [List.append_nil] at hop'
        exact turn_shape config op t p.shared op' hop'
      | cons op₁ rest =>
        rw [List.dropLast_append_of_ne_nil (List.cons_ne_nil op₁ rest)] at hop'
        have hshape := h.shape _ hmem
        rw [List.dropLast_cons_of_ne_nil (List.cons_ne_nil op₁ rest)] at hshape
        rcases List.mem_append.mp hop' with hnew | hrest
        · -- the operation was not the last of its thread, so it leaves nothing live
          have hop := hshape op List.mem_cons_self
          have hlive := turn_live config op t p.shared
          have hle : op'.live ≤ weight WriterOp.live (turn config op t p.shared).2 :=
            Pool.le_weight hnew
          omega
        · exact hshape op' (List.mem_cons_of_mem _ hrest)

theorem wake_run (config : WriterConfig) (moves : List WriterMove) :
    WakeInvariant (writerRun config moves) := by
  refine Pool.run_keeps ?_ (fun _ _ _ _ hturned h => wake_turn h hturned) ?_ moves
  · intro p call h
    have hnone : call.op.created = none ∧ call.op.waits = none := by
      cases call <;> exact ⟨rfl, rfl⟩
    refine ⟨fun op hop n hn => ?_, fun hclosed => ?_, fun stack hstack => ?_⟩
    · rcases Pool.running_spawn hop with rfl | hold
      · rw [hnone.1] at hn
        cases hn
      · exact h.created op hold n hn
    · rcases h.woken hclosed with hnotifying | hwoken
      · exact .inl (hnotifying.trans (Pool.le_total_spawn ..))
      · refine .inr fun op hop n hn => ?_
        rcases Pool.running_spawn hop with rfl | hold
        · rw [hnone.2] at hn
          cases hn
        · exact hwoken op hold n hn
    · rcases List.mem_append.mp hstack with hold | hnew
      · exact h.shape stack hold
      · rw [List.mem_singleton.mp hnew]
        intro op hop
        cases hop
  · refine ⟨fun op hop n hn => ?_, fun h => (by cases h), ?_⟩
    · rw [running_new hop] at hn
      cases hn
    · intro stack hstack op hop
      rw [List.mem_singleton.mp hstack] at hop
      cases hop

/-! ## the end -/

/-- how many turns an operation can take in a closed writer, with what it leaves; a turn that only
waits for the transport's shutdown is not counted -/
def WriterOp.cost : WriterOp → Nat
  | .enqueuePayload _ _ | .enqueueSkip _ | .refuse _ | .start | .close | .notifyWaiters | .release
  | .tryRecv _ => 1
  | .complete _ _ => 2
  | .stageBootstrap _ | .failPending _ => 3
  | .trySend _ => 4
  | .tryAcquire _ _ _ | .tryAcquireSkip _ | .dropWriter => 5
  | .awaitShutdown _ => 6
  | .shutdown => 7
  | .pollFence _ _ => 10
  | .pollStarted _ | .popBootstrapOrPhase | .pollClosed _ | .selectWrite _ => 11
  | .startedOrClosed | .startGap | .select | .awaitWrite _ _ => 12
  | .next | .awaitStarted _ | .awaitSelect _ | .pollTimeout _ _ => 13
  | .spawned | .recv _ | .materialize _ => 14
  | .acceptExpected _ | .pollGap _ => 15
  | .pollWrite _ _ => 16

/-- an operation of the task before it waits for the shutdown of the transport -/
def WriterOp.ahead : WriterOp → Nat
  | .shutdown => 1
  | op => op.live

def WriterOp.parting : WriterOp → Nat
  | .awaitShutdown _ => 1
  | _ => 0

attribute [simp] WriterOp.cost WriterOp.ahead WriterOp.parting

/-- the turns that the queued requests can take -/
def queueCost (s : WriterState) : Nat := 3 * (s.channel.length + s.reordered.length)

def patience (p : WriterPool) : Nat := p.total WriterOp.cost + queueCost p.shared

section
variable (config : WriterConfig) (op : WriterOp) (input : WriterInput) (s : WriterState)

theorem poll_cost (hclosed : s.phase = .closed) (hbootstrap : s.bootstrap = [])
    (hwoken : ∀ n, op.waits = some n → n < s.notified)
    (hdue : ∀ deadline, op = .awaitShutdown deadline → input.shutDown ∨ deadline ≤ input.now) :
    queueCost (execute config op input s).1 + weight WriterOp.cost (execute config op input s).2 <
      queueCost s + op.cost := by
  have hisClosed : s.isClosed = true := by simp [WriterState.isClosed, hclosed]
  unfold queueCost
  cases op <;> simp only [execute, violation, failed, pollShutdown, hisClosed, hclosed, hbootstrap,
      if_true] <;>
    (repeat' split) <;> simp_all [length_insertReordered] <;> omega

theorem turn_ahead (t : WriterTurn) :
    weight WriterOp.ahead (turn config op t s).2 ≤ op.ahead ∧
      weight WriterOp.ahead (turn config op t s).2 + weight WriterOp.parting (turn config op t s).2 ≤
        op.ahead + op.parting := by
  cases t with
  | cancel => cases op <;> simp
  | poll input =>
    cases op <;> simp only [turn, execute, violation, failed, pollShutdown] <;> (repeat' split) <;>
      simp

theorem poll_deadline {deadline : Nat} (h : .awaitShutdown deadline ∈ (execute config op input s).2) :
    op = .awaitShutdown deadline ∨ op = .shutdown ∧ deadline = input.now + config.writeTimeout := by
  revert h
  cases op <;> simp only [execute, violation, failed, pollShutdown] <;> (repeat' split) <;>
    simp_all

end

theorem cost_pos (op : WriterOp) : 1 ≤ op.cost := by
  cases op <;> simp

/-- the task parts with its transport once -/
def PartsOnce (p : WriterPool) : Prop :=
  p.total WriterOp.ahead + p.total WriterOp.parting ≤ 1

theorem PartsOnce.turn {config : WriterConfig} {p' : WriterPool} {op : WriterOp} {t : WriterTurn}
    (h : PartsOnce p) (hturned : p.Turned (turn config) t op p') : PartsOnce p' := by
  have hahead := hturned.total WriterOp.ahead
  have hparting := hturned.total WriterOp.parting
  have hturn := (turn_ahead config op p.shared t).2
  unfold PartsOnce at h ⊢
  omega

theorem partsOnce_run (config : WriterConfig) (moves : List WriterMove) :
    PartsOnce (writerRun config moves) := by
  refine Pool.run_keeps ?_ (fun _ _ _ _ hturned h => h.turn hturned) ?_ moves
  · intro p call h
    have hnone : WriterOp.ahead call.op = 0 ∧ WriterOp.parting call.op = 0 := by
      cases call <;> exact ⟨rfl, rfl⟩
    unfold PartsOnce at h ⊢
    rw [Pool.total_spawn, Pool.total_spawn, hnone.1, hnone.2]
    exact h
  · exact Nat.le_refl 1

theorem PartsOnce.waiting {deadline : Nat} (h : PartsOnce p)
    (hrunning : p.Running (.awaitShutdown deadline)) : p.total WriterOp.ahead = 0 := by
  have hle : WriterOp.parting (.awaitShutdown deadline) ≤ p.total WriterOp.parting :=
    Pool.le_total hrunning
  unfold PartsOnce at h
  simp only [WriterOp.parting] at hle
  omega

/-- the task is polled, on these inputs, and nothing else happens -/
def polled (config : WriterConfig) (p : WriterPool) (inputs : List WriterInput) : WriterPool :=
  inputs.foldl (fun p input => p.step (turn config) 0 (.poll input)) p

/-- the calls have returned: only the task is left -/
def Returned (p : WriterPool) : Prop := ∃ stack returned,
  p.threads = stack :: returned ∧ ∀ st ∈ returned, st = []

theorem Returned.total {stack : List WriterOp} {returned : List (List WriterOp)}
    (hthreads : p.threads = stack :: returned) (hreturned : ∀ st ∈ returned, st = [])
    (m : WriterOp → Nat) : p.total m = weight m stack := by
  have hrest : (returned.map (weight m)).sum = 0 := by
    refine List.sum_eq_zero fun n hn => ?_
    obtain ⟨st, hst, rfl⟩ := List.mem_map.mp hn
    rw [hreturned st hst, weight_nil]
  unfold Pool.total
  rw [hthreads, List.map_cons, List.sum_cons, hrest, Nat.add_zero]

/-- a closed writer whose calls have returned -/
structure Leaving (p : WriterPool) : Prop where
  invariant : WriterInvariant p
  wake : WakeInvariant p
  once : PartsOnce p
  closed : p.shared.phase = .closed
  returned : Returned p

/-- what a poll of the task of a closed writer does -/
inductive Polled (config : WriterConfig) (input : WriterInput) (p p' : WriterPool) : Prop where
  | ended (quiet : p.Quiet) (same : p' = p)
  /-- the transport's shutdown has not returned and its deadline is not over -/
  | waits (deadline : Nat) (running : p.Running (.awaitShutdown deadline))
      (early : input.now < deadline) (same : p' = p)
  | nearer (patience : patience p' < patience p)
      (ahead : p'.total WriterOp.ahead ≤ p.total WriterOp.ahead)
      (deadlines : ∀ deadline, p'.Running (.awaitShutdown deadline) →
        p.Running (.awaitShutdown deadline) ∨
          1 ≤ p.total WriterOp.ahead ∧ deadline = input.now + config.writeTimeout)

theorem Leaving.poll (h : Leaving p) (config : WriterConfig) (input : WriterInput) :
    Leaving (p.step (turn config) 0 (.poll input)) ∧
      Polled config input p (p.step (turn config) 0 (.poll input)) := by
  obtain ⟨stack, returned, hthreads, hreturned⟩ := h.returned
  cases stack with
  | nil =>
    have hsame : p.step (turn config) 0 (.poll input) = p := by
      unfold Pool.step
      rw [hthreads]
      rfl
    have hquiet : p.Quiet := by
      intro st hst
      rw [hthreads] at hst
      rcases List.mem_cons.mp hst with rfl | hst
      · rfl
      · exact hreturned st hst
    rw [hsame]
    exact ⟨h, .ended hquiet rfl⟩
  | cons op rest =>
    have htop : p.threads[0]? = some (op :: rest) := by
      rw [hthreads]
      rfl
    have hstep : p.step (turn config) 0 (.poll input) =
        { shared := (turn config op (.poll input) p.shared).1
          threads := p.threads.set 0 ((turn config op (.poll input) p.shared).2 ++ rest) } := by
      unfold Pool.step
      rw [htop]
    have hturned : p.Turned (turn config) (.poll input) op (p.step (turn config) 0 (.poll input)) := by
      rw [hstep]
      exact ⟨rfl, 0, rest, htop, rfl⟩
    have hahead := hturned.total WriterOp.ahead
    have hturn := turn_ahead config op p.shared (.poll input)
    refine ⟨⟨invariant_turn h.invariant hturned, wake_turn h.wake hturned, h.once.turn hturned, ?_,
      _, returned, by rw [hstep, hthreads]; rfl, hreturned⟩, ?_⟩
    · rw [hturned.shared]
      exact (turn_grows config op (.poll input) p.shared).phase h.closed
    by_cases hdue : ∀ deadline, op = .awaitShutdown deadline → input.shutDown ∨ deadline ≤ input.now
    · have hwoken : ∀ n, op.waits = some n → n < p.shared.notified := by
        intro n hn
        obtain ⟨-, hlive, hnotifying⟩ := created_of_waits hn
        -- what waits is the last operation of the task, so no notification is still to come
        have hrest : rest = [] := by
          by_contra hne
          have hshape := h.wake.shape (op :: rest) (hthreads ▸ List.mem_cons_self) op
            (by rw [List.dropLast_cons_of_ne_nil hne]; exact List.mem_cons_self)
          omega
        rcases h.wake.woken h.closed with hsoon | hwoken
        · rw [Returned.total hthreads hreturned, hrest, weight_cons, weight_nil] at hsoon
          omega
        · exact hwoken op hturned.running n hn
      have hcost := poll_cost config op input p.shared h.closed
        (h.invariant.shut.bootstrap h.closed) hwoken hdue
      have htotal := hturned.total WriterOp.cost
      refine .nearer ?_ (by omega) fun deadline hrunning => ?_
      · unfold patience
        rw [hturned.shared]
        show _ + queueCost (execute config op input p.shared).1 < _
        have htotal' : _ + op.cost = p.total WriterOp.cost +
          weight WriterOp.cost (execute config op input p.shared).2 := htotal
        omega
      · rcases hturned.ran hrunning with hnew | hold
        · rcases poll_deadline config op input p.shared hnew with rfl | ⟨rfl, hdeadline⟩
          · exact .inl hturned.running
          · have hle : WriterOp.ahead .shutdown ≤ p.total WriterOp.ahead :=
              Pool.le_total hturned.running
            exact .inr ⟨hle, hdeadline⟩
        · exact .inl hold
    · push Not at hdue
      obtain ⟨deadline, rfl, hpending, hearly⟩ := hdue
      refine .waits deadline hturned.running hearly ?_
      have hagain : turn config (.awaitShutdown deadline) (.poll input) p.shared =
          (p.shared, [.awaitShutdown deadline]) := by
        show (p.shared, pollShutdown deadline input) = _
        unfold pollShutdown
        rw [if_neg (not_or.mpr ⟨hpending, Nat.not_le.mpr hearly⟩)]
      rw [hstep, hagain, hthreads]
      show { p with threads := (.awaitShutdown deadline :: rest) :: returned } = p
      rw [← hthreads]

theorem quiet_of_patience (h : patience p = 0) : p.Quiet := by
  intro stack hstack
  cases stack with
  | nil => rfl
  | cons op rest =>
    have hle : op.cost ≤ p.total WriterOp.cost := Pool.le_total ⟨_, hstack, List.mem_cons_self⟩
    have hpos := cost_pos op
    unfold patience at h
    omega

theorem Leaving.reaches (h : Leaving p) (config : WriterConfig) {inputs : List WriterInput}
    (hlong : patience p ≤ inputs.length ∨ p.total WriterOp.ahead = 0) :
    Leaving (polled config p inputs) ∧ (polled config p inputs).total WriterOp.ahead = 0 ∧
      patience (polled config p inputs) ≤ patience p ∧
      ∀ deadline, (polled config p inputs).Running (.awaitShutdown deadline) →
        p.Running (.awaitShutdown deadline) ∨
          ∃ input ∈ inputs, deadline = input.now + config.writeTimeout := by
  induction inputs generalizing p with
  | nil =>
    refine ⟨h, ?_, le_rfl, fun deadline hrunning => .inl hrunning⟩
    rcases hlong with hlong | hnone
    · exact Pool.total_quiet (quiet_of_patience (Nat.le_zero.mp hlong))
    · exact hnone
  | cons input inputs ih =>
    obtain ⟨hleaving, hpolled⟩ := h.poll config input
    show Leaving (polled config (p.step (turn config) 0 (.poll input)) inputs) ∧ _
    have hnext : (patience (p.step (turn config) 0 (.poll input)) ≤ inputs.length ∨
          (p.step (turn config) 0 (.poll input)).total WriterOp.ahead = 0) ∧
        patience (p.step (turn config) 0 (.poll input)) ≤ patience p ∧
        ∀ deadline, (p.step (turn config) 0 (.poll input)).Running (.awaitShutdown deadline) →
          p.Running (.awaitShutdown deadline) ∨ deadline = input.now + config.writeTimeout := by
      cases hpolled with
      | ended hquiet hsame =>
        rw [hsame]
        exact ⟨.inr (Pool.total_quiet hquiet), le_rfl, fun deadline hrunning => .inl hrunning⟩
      | waits deadline hrunning _ hsame =>
        rw [hsame]
        exact ⟨.inr (h.once.waiting hrunning), le_rfl, fun deadline hrunning => .inl hrunning⟩
      | nearer hless hahead hdeadlines =>
        refine ⟨?_, hless.le, fun deadline hrunning => (hdeadlines deadline hrunning).imp_right And.right⟩
        rw [List.length_cons] at hlong
        omega
    obtain ⟨hnear, hmore, hdeadlines⟩ := hnext
    obtain ⟨hend, hnone, hpatience, hfrom⟩ := ih hleaving hnear
    refine ⟨hend, hnone, hpatience.trans hmore, fun deadline hrunning => ?_⟩
    rcases hfrom deadline hrunning with hold | ⟨i, hi, rfl⟩
    · exact (hdeadlines deadline hold).imp_right fun hnow => ⟨input, List.mem_cons_self, hnow⟩
    · exact .inr ⟨i, List.mem_cons_of_mem _ hi, rfl⟩

theorem Leaving.ends (h : Leaving p) (config : WriterConfig) {inputs : List WriterInput}
    (hgone : p.total WriterOp.ahead = 0) (hlong : patience p ≤ inputs.length)
    (hover : ∀ input ∈ inputs, ∀ deadline, p.Running (.awaitShutdown deadline) →
      deadline ≤ input.now) :
    (polled config p inputs).Quiet ∧ Leaving (polled config p inputs) := by
  induction inputs generalizing p with
  | nil => exact ⟨quiet_of_patience (Nat.le_zero.mp hlong), h⟩
  | cons input inputs ih =>
    rw [List.length_cons] at hlong
    rw [List.forall_mem_cons] at hover
    obtain ⟨hleaving, hpolled⟩ := h.poll config input
    show (polled config (p.step (turn config) 0 (.poll input)) inputs).Quiet ∧ _
    cases hpolled with
    | ended hquiet hsame =>
      -- a task that has returned has nothing left to be patient for
      obtain ⟨-, hchannel, hreordered⟩ := h.invariant.quiet_empty hquiet
      refine ih hleaving ?_ ?_ ?_
      all_goals rw [hsame]
      · exact hgone
      · unfold patience queueCost
        rw [Pool.total_quiet hquiet, hchannel, hreordered]
        exact Nat.zero_le _
      · exact hover.2
    | waits deadline hrunning hearly _ =>
      exact absurd (hover.1 deadline hrunning) (Nat.not_le.mpr hearly)
    | nearer hless hahead hdeadlines =>
      refine ih hleaving (by omega) (by omega) fun i hi deadline hrunning => ?_
      rcases hdeadlines deadline hrunning with hold | ⟨hahead', -⟩
      · exact hover.2 i hi deadline hold
      · omega

/-- The task of a closed writer ends.  In every run in which the writer has been closed and the calls
have returned, polling the task often enough, and as often again when the write timeout has passed
since, makes it return, whatever the transport and the encoders do then, and every completion that was
ever issued is resolved exactly once. -/
theorem closed_writer_finishes (config : WriterConfig) (moves : List WriterMove)
    (early late : List WriterInput) (hclosed : (writerRun config moves).shared.phase = .closed)
    (hreturned : Returned (writerRun config moves))
    (hearly : patience (writerRun config moves) ≤ early.length)
    (hlate : patience (writerRun config moves) ≤ late.length)
    (hclock : ∀ input ∈ late, (∀ before ∈ early, before.now + config.writeTimeout ≤ input.now) ∧
      ∀ deadline, (writerRun config moves).Running (.awaitShutdown deadline) → deadline ≤ input.now) :
    (polled config (writerRun config moves) (early ++ late)).Quiet ∧
    ∀ c < (polled config (writerRun config moves) (early ++ late)).shared.issued,
      completions c (polled config (writerRun config moves) (early ++ late)).shared.log = 1 := by
  have hleaving : Leaving (writerRun config moves) :=
    ⟨invariant_run config moves, wake_run config moves, partsOnce_run config moves, hclosed, hreturned⟩
  obtain ⟨hmiddle, hgone, hpatience, hfrom⟩ := hleaving.reaches config (.inl hearly)
  obtain ⟨hquiet, hend⟩ := hmiddle.ends config hgone (hpatience.trans hlate) (by
    intro input hinput deadline hrunning
    rcases hfrom deadline hrunning with hold | ⟨before, hbefore, rfl⟩
    · exact (hclock input hinput).2 deadline hold
    · exact (hclock input hinput).1 before hbefore)
  have hsplit : polled config (writerRun config moves) (early ++ late) =
      polled config (polled config (writerRun config moves) early) late := List.foldl_append ..
  rw [hsplit]
  exact ⟨hquiet, fun c hc => hend.invariant.quiet_completed hquiet hc⟩

/-! ## one run -/

def smallWriter : WriterConfig where
  queueCapacity := 2
  sequenceGapTimeout := 1000
  maxFrameBytes := 64
  maxMessageBytes := 64
  writeTimeout := 1000

def polls (thread n : Nat) : List WriterMove := List.replicate n (.turn thread (.poll {}))

/-- the writer is started and closed again while a request is written, of which the transport has
taken a byte, and another one waits in the channel -/
def closedWriting : List WriterMove :=
  .call .startWriter :: polls 1 2 ++ .call (.enqueuePayload 1 (.ready [7])) :: polls 2 3 ++
    .call (.enqueuePayload 2 (.ready [8])) :: polls 3 3 ++ polls 0 14 ++
    .turn 0 (.poll { taken := 1 }) :: polls 0 1 ++ .call .close :: polls 4 2

/-- the transport does nothing any more -/
def idlePolls (now : Nat) : List WriterInput := List.replicate 20 { now }

/-- the transport does not return from its shutdown, and both requests are resolved at the deadline -/
theorem closed_writer_finishes_writing :
    (writerRun smallWriter closedWriting).threads =
        [[.awaitWrite ⟨⟨1, .ready [7], false, true, 0⟩, [0, 0, 1, 7], 1000⟩ 1], [], [], [], []] ∧
      (writerRun smallWriter closedWriting).shared.phase = .closed ∧
      (polled smallWriter (writerRun smallWriter closedWriting) (idlePolls 0)).threads =
        [[.awaitShutdown 1000], [], [], [], []] ∧
      (polled smallWriter (writerRun smallWriter closedWriting)
        (idlePolls 0 ++ idlePolls 1000)).Quiet ∧
      ∀ c < 2, completions c (polled smallWriter (writerRun smallWriter closedWriting)
        (idlePolls 0 ++ idlePolls 1000)).shared.log = 1 := by
  have hthreads : (writerRun smallWriter closedWriting).threads =
      [[.awaitWrite ⟨⟨1, .ready [7], false, true, 0⟩, [0, 0, 1, 7], 1000⟩ 1], [], [], [], []] := by
    decide +kernel
  have hparting : (writerRun smallWriter closedWriting).total WriterOp.parting = 0 := by
    decide +kernel
  have hclock : ∀ input ∈ idlePolls 1000, (∀ before ∈ idlePolls 0,
      before.now + smallWriter.writeTimeout ≤ input.now) ∧
      ∀ deadline, (writerRun smallWriter closedWriting).Running (.awaitShutdown deadline) →
        deadline ≤ input.now := by
    intro input hinput
    rw [List.eq_of_mem_replicate hinput]
    refine ⟨fun before hbefore => ?_, fun deadline hrunning => ?_⟩
    · rw [List.eq_of_mem_replicate hbefore]
      decide
    · have hone : WriterOp.parting (.awaitShutdown deadline) ≤ _ := Pool.le_total hrunning
      rw [hparting] at hone
      cases hone
  have h := closed_writer_finishes smallWriter closedWriting (idlePolls 0) (idlePolls 1000)
    (by decide +kernel) ⟨_, [[], [], [], []], hthreads, by decide⟩ (by decide +kernel)
    (by decide +kernel) hclock
  refine ⟨hthreads, by decide +kernel, by decide +kernel, h.1, fun c hc => h.2 c ?_⟩
  exact hc.trans_le (by decide +kernel)

end Sinan.Gateway
