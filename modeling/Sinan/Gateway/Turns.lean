import Sinan.Gateway.Writer

/-!
# The queued writer: what one turn can do

An operation has a weight for each thing that is counted about the threads: the completions it still
owes (`held`), whether it belongs to the task before its end (`live`), whether it can still lead to a
sequence number that is accepted without another look at the phase (`accepting`), and so on.  For each
weight there is one lemma about a turn: what the operation weighed is at least what the operations it
leaves weigh, or what it weighed has gone into the state.
-/

namespace Sinan.Gateway

open Lib Protocol

/-! ## completions -/

/-- one if the two numbers are those of one completion -/
def isFor (completion c : Nat) : Nat := if completion = c then 1 else 0

/-- one if the request is to be completed under the number -/
def QueuedWrite.heldFor (c : Nat) (r : QueuedWrite) : Nat := isFor r.completion c

@[simp] theorem isFor_completion (r : QueuedWrite) (c : Nat) : isFor r.completion c = r.heldFor c := rfl

@[simp] theorem heldFor_mk (c sequence completion : Nat) (payload : QueuedPayload)
    (skip permit : Bool) :
    QueuedWrite.heldFor c ⟨sequence, payload, skip, permit, completion⟩ = isFor completion c := rfl

@[simp] theorem weight_insertReordered (m : QueuedWrite → Nat) (r : QueuedWrite)
    (l : List QueuedWrite) : weight m (insertReordered r l) = weight m l + m r :=
  weight_takeWhile _ _ r l

theorem length_insertReordered (r : QueuedWrite) (l : List QueuedWrite) :
    (insertReordered r l).length = l.length + 1 := by
  have hlength := weight_insertReordered (fun _ => 1) r l
  rw [weight_const, weight_const, Nat.one_mul, Nat.one_mul] at hlength
  exact hlength

/-- a sum over the requests in the queues -/
def queued (m : QueuedWrite → Nat) (s : WriterState) : Nat :=
  weight m s.bootstrap + weight m s.channel + weight m s.reordered

def WriterOp.held (c : Nat) : WriterOp → Nat
  | .tryAcquire completion _ _ | .refuse completion => isFor completion c
  | .trySend r | .complete r _ | .acceptExpected r | .materialize r => r.heldFor c
  | .selectWrite t | .pollFence t _ | .pollWrite t _ | .pollTimeout t _ | .awaitWrite t _ =>
    t.request.heldFor c
  | _ => 0

def WriterEvent.completes (c : Nat) : WriterEvent → Nat
  | .completed completion _ => isFor completion c
  | _ => 0

/-- how often the completion has been resolved -/
def completions (c : Nat) (log : List WriterEvent) : Nat := weight (WriterEvent.completes c) log

@[simp] theorem completions_cons (c : Nat) (e : WriterEvent) (log : List WriterEvent) :
    completions c (e :: log) = e.completes c + completions c log := rfl

/-- resolved, or held in one of the queues -/
def accounted (c : Nat) (s : WriterState) : Nat :=
  completions c s.log + queued (QueuedWrite.heldFor c) s

/-- one if the completion has been issued -/
def entered (c issued : Nat) : Nat := if c < issued then 1 else 0

theorem entered_succ (c n : Nat) : entered c (n + 1) = entered c n + isFor n c := by
  unfold entered isFor
  split_ifs <;> omega

theorem materialize_keeps {α : Type} (f : QueuedWrite → α)
    (hf : ∀ (r : QueuedWrite) payload, f { r with payload } = f r) (r : QueuedWrite)
    (encoded : Except String (List UInt8)) : f (r.materializeWireBytes encoded).1 = f r := by
  unfold QueuedWrite.materializeWireBytes
  split
  · rfl
  · split <;> exact hf r _
  · rfl

@[simp] theorem QueuedWrite.materialize_completion (r : QueuedWrite)
    (encoded : Except String (List UInt8)) :
    (r.materializeWireBytes encoded).1.completion = r.completion :=
  materialize_keeps (fun r => r.completion) (fun _ _ => rfl) r encoded

@[simp] theorem materialize_heldFor (c : Nat) (r : QueuedWrite)
    (encoded : Except String (List UInt8)) :
    (r.materializeWireBytes encoded).1.heldFor c = r.heldFor c :=
  materialize_keeps (QueuedWrite.heldFor c) (fun _ _ => rfl) r encoded

/-! ## weights -/

/-- an operation of the task before its end -/
def WriterOp.live : WriterOp → Nat
  | .spawned | .next | .startedOrClosed | .pollStarted _ | .awaitStarted _ | .startGap
  | .popBootstrapOrPhase | .acceptExpected _ | .select | .pollClosed _ | .pollGap _ | .recv _
  | .awaitSelect _ | .materialize _ | .selectWrite _ | .pollFence _ _ | .pollWrite _ _
  | .pollTimeout _ _ | .awaitWrite _ _ => 1
  | _ => 0

/-- an operation of the end of the task that fails what is pending, or leads to one -/
def WriterOp.ending : WriterOp → Nat
  | .failPending _ | .shutdown | .awaitShutdown _ | .dropWriter => 1
  | _ => 0

/-- what may accept a sequence number without another look at the phase -/
def WriterOp.accepting : WriterOp → Nat
  | .acceptExpected _ | .pollGap _ | .recv _ | .awaitSelect _ => 1
  | _ => 0

/-- what leads to a close -/
def WriterOp.closing : WriterOp → Nat
  | .close | .shutdown | .awaitShutdown _ | .dropWriter => 1
  | op => op.live

/-- what leads to a `fail_pending` -/
def WriterOp.failing (op : WriterOp) : Nat := op.ending + op.live

/-- what empties the channel -/
def WriterOp.draining : WriterOp → Nat
  | .tryRecv _ => 1
  | _ => 0

def SinkWriteOutcome.unsent : SinkWriteOutcome → Bool
  | .backpressure _ | .definitelyNotWritten _ => true
  | _ => false

/-- what holds a request whose write has begun and that will not be reported as unsent -/
def WriterOp.writing (c : Nat) : WriterOp → Nat
  | .selectWrite t | .pollFence t _ | .pollWrite t _ | .pollTimeout t _ | .awaitWrite t _ =>
    t.request.heldFor c
  | .complete r outcome => if outcome.unsent then 0 else r.heldFor c
  | _ => 0

attribute [simp] turn cancel WriterState.record WriterState.issue WriterEvent.completes WriterOp.held
  WriterOp.live WriterOp.ending WriterOp.accepting WriterOp.closing WriterOp.failing WriterOp.draining
  WriterOp.writing

theorem accepting_le_live (op : WriterOp) : op.accepting ≤ op.live := by
  cases op <;> simp

theorem writing_le_held (c : Nat) (op : WriterOp) : op.writing c ≤ op.held c := by
  cases op
  case complete r outcome =>
    simp only [WriterOp.writing, WriterOp.held]
    split
    · exact Nat.zero_le _
    · exact le_rfl
  all_goals simp

/-! ## what the log says -/

def Stopped (log : List WriterEvent) : Prop := .violated ∈ log ∨ .gapTimedOut ∈ log

/-- nothing is accepted after a violation or a gap that timed out -/
def Silent : List WriterEvent → Prop :=
  Along fun earlier event => ∀ c n skip, event = .accepted c n skip → ¬ Stopped earlier

def acceptedSequences (log : List WriterEvent) : List Nat :=
  log.filterMap fun
    | .accepted _ sequence _ => some sequence
    | _ => none

/-- the accepted sequence numbers are those in front of the next one -/
def Consecutive (s : WriterState) : Prop :=
  ∃ n, s.nextSequence = n + 1 ∧ acceptedSequences s.log = (List.range' 1 n).reverse

def WriterEvent.late (earlier : List WriterEvent) : WriterEvent → Nat
  | .accepted _ _ _ => if .closed ∈ earlier then 1 else 0
  | _ => 0

/-- how many sequence numbers have been accepted after a close -/
def lateAccepted : List WriterEvent → Nat
  | [] => 0
  | event :: earlier => event.late earlier + lateAccepted earlier

attribute [simp] WriterEvent.late lateAccepted

/-- the request has been handed to the transport -/
def Handed (c : Nat) (log : List WriterEvent) : Prop := ∃ n, .accepted c n false ∈ log

/-- the request has been handed to the transport before the writer was closed -/
def HandedOpen (c : Nat) (log : List WriterEvent) : Prop :=
  ∃ later n earlier, log = later ++ .accepted c n false :: earlier ∧ .closed ∉ earlier

variable {c : Nat} {log log' : List WriterEvent}

theorem HandedOpen.handed (h : HandedOpen c log) :
    Handed c log := by
  obtain ⟨later, n, earlier, rfl, -⟩ := h
  exact ⟨n, List.mem_append_right _ List.mem_cons_self⟩

theorem Handed.open (h : Handed c log) (hopen : .closed ∉ log) :
    HandedOpen c log := by
  obtain ⟨n, hmem⟩ := h
  obtain ⟨later, earlier, rfl⟩ := List.append_of_mem hmem
  exact ⟨later, n, earlier, rfl,
    fun hclosed => hopen (List.mem_append_right _ (List.mem_cons_of_mem _ hclosed))⟩

theorem Handed.mono (h : Handed c log) (hlog : log <:+ log') :
    Handed c log' := h.imp fun _ hmem => hlog.subset hmem

theorem HandedOpen.mono (h : HandedOpen c log) (hlog : log <:+ log') :
    HandedOpen c log' := by
  obtain ⟨later, n, earlier, rfl, hopen⟩ := h
  obtain ⟨new, rfl⟩ := hlog
  exact ⟨new ++ later, n, earlier, (List.append_assoc ..).symm, hopen⟩

/-- An operation that writes has a request that was handed over, and past the fence one that was
handed over in time; what reports a success follows one. -/
def WriterOp.Placed (log : List WriterEvent) : WriterOp → Prop
  | .materialize r => Handed r.completion log
  | .selectWrite t | .pollFence t _ => Handed t.request.completion log
  | .pollWrite t _ | .pollTimeout t _ | .awaitWrite t _ => HandedOpen t.request.completion log
  | .complete r outcome => outcome = .written → .wrote r.completion ∈ log
  | _ => True

theorem WriterOp.Placed.mono {op : WriterOp} (h : op.Placed log) (hlog : log <:+ log') :
    op.Placed log' := by
  cases op
  case materialize r => exact Handed.mono h hlog
  case selectWrite t => exact Handed.mono h hlog
  case pollFence t created => exact Handed.mono h hlog
  case pollWrite t created => exact HandedOpen.mono h hlog
  case pollTimeout t created => exact HandedOpen.mono h hlog
  case awaitWrite t created => exact HandedOpen.mono h hlog
  case complete r outcome => exact fun hwritten => hlog.subset (h hwritten)
  all_goals trivial

theorem placed_completes {requests : List QueuedWrite} {error : String} {last : WriterOp}
    (hlast : last.Placed log) : ∀ op ∈ requests.map
      (WriterOp.complete · (.definitelyNotWritten error)) ++ [last], op.Placed log := by
  intro op hop
  rcases List.mem_append.mp hop with hop | hop
  · obtain ⟨r, -, rfl⟩ := List.mem_map.mp hop
    intro hwritten
    cases hwritten
  · rw [List.mem_singleton.mp hop]
    exact hlast

/-! ## one turn -/

section
variable (config : WriterConfig) (op : WriterOp) (t : WriterTurn) (s : WriterState)

/-- A turn moves the completions between the operations, the queues and the log; it loses none and
makes none but those it issues. -/
theorem turn_ledger (c : Nat) :
    accounted c (turn config op t s).1 + weight (WriterOp.held c) (turn config op t s).2 +
        entered c s.issued =
      accounted c s + op.held c + entered c (turn config op t s).1.issued := by
  have hmap : ∀ l outcome, weight (WriterOp.held c) (l.map (WriterOp.complete · outcome)) =
      weight (QueuedWrite.heldFor c) l := fun _ _ => weight_map _ _ _
  unfold accounted queued
  cases t with
  | cancel => cases op <;> simp
  | poll input =>
    cases op <;> simp only [turn, execute, violation, failed, pollShutdown] <;> (repeat' split) <;>
      first
      | -- a request is taken out of the reorder buffer
        have hheld := weight_eraseP (m := QueuedWrite.heldFor c) ‹_ = some _›
        simp only [WriterOp.held, weight_cons, weight_nil]
        omega
      | simp [-weight_map, entered_succ, *] <;> try omega

/-- what a turn does not undo -/
structure Grows (s s' : WriterState) : Prop where
  log : s.log <:+ s'.log
  phase : s.phase = .closed → s'.phase = .closed
  retired : s.closed = true → s'.closed = true
  notified : s.notified ≤ s'.notified

theorem turn_grows : Grows s (turn config op t s).1 := by
  cases t with
  | cancel => cases op <;> constructor <;> simp
  | poll input =>
    cases op <;> simp only [turn, execute, violation] <;> (repeat' split) <;> constructor <;>
      simp_all [List.suffix_cons_iff]

theorem turn_ending :
    2 * weight WriterOp.live (turn config op t s).2 +
        weight WriterOp.ending (turn config op t s).2 ≤ 2 * op.live + op.ending := by
  cases t with
  | cancel => cases op <;> simp
  | poll input =>
    cases op <;> simp only [turn, execute, violation, failed, pollShutdown] <;> (repeat' split) <;> simp

theorem turn_live : weight WriterOp.live (turn config op t s).2 ≤ op.live := by
  have hends := turn_ending config op t s
  have hone : op.ending ≤ 1 := by cases op <;> simp
  omega

theorem turn_stopped (h : Stopped (turn config op t s).1.log) :
    Stopped s.log ∨ (weight WriterOp.live (turn config op t s).2 = 0 ∧ op.live = 1) := by
  revert h
  unfold Stopped
  cases t with
  | cancel => cases op <;> simp +contextual
  | poll input =>
    cases op <;> simp only [turn, execute, violation, failed, pollShutdown] <;> (repeat' split) <;>
      simp +contextual

theorem turn_silent (h : Silent s.log) (hlive : op.live = 1 → ¬ Stopped s.log) :
    Silent (turn config op t s).1.log := by
  cases t with
  | cancel => cases op <;> simpa [Silent, Along] using h
  | poll input =>
    cases op <;> simp only [turn, execute, violation] <;> (repeat' split) <;>
      simp_all [Silent, Along]

theorem turn_consecutive (h : Consecutive s) : Consecutive (turn config op t s).1 := by
  obtain ⟨n, hnext, hlog⟩ := h
  have hsame : ∀ s' : WriterState, s'.nextSequence = s.nextSequence →
      acceptedSequences s'.log = acceptedSequences s.log → Consecutive s' :=
    fun s' hnext' hlog' => ⟨n, hnext'.trans hnext, hlog'.trans hlog⟩
  cases t with
  | cancel => cases op <;> exact hsame _ rfl rfl
  | poll input =>
    cases op
    case acceptExpected r =>
      simp only [turn, execute, violation]
      split
      case isTrue => exact hsame _ rfl rfl
      case isFalse hsequence =>
        split
        case isTrue => exact hsame _ rfl rfl
        case isFalse =>
          refine ⟨n + 1, congrArg (· + 1) hnext, ?_⟩
          show r.sequence :: acceptedSequences s.log = _
          rw [not_not.mp hsequence, hnext, hlog, List.range'_1_concat, List.reverse_append]
          simp [Nat.add_comm]
    all_goals
      simp only [turn, execute, violation]
      (repeat' split) <;> exact hsame _ rfl rfl

/-- a close is in the log, and has emptied the bootstrap queue -/
structure Shut (s : WriterState) : Prop where
  closed : .closed ∈ s.log ↔ s.phase = .closed
  bootstrap : s.phase = .closed → s.bootstrap = []

theorem turn_shut (h : Shut s) : Shut (turn config op t s).1 := by
  obtain ⟨hclosed, hbootstrap⟩ := h
  cases t with
  | cancel => cases op <;> constructor <;> simp_all
  | poll input =>
    cases op <;> simp only [turn, execute, violation] <;> (repeat' split) <;> constructor <;>
      simp_all

theorem turn_late (hclosed : s.phase = .closed) :
    lateAccepted (turn config op t s).1.log + weight WriterOp.accepting (turn config op t s).2 ≤
      lateAccepted s.log + op.accepting := by
  have hisClosed : s.isClosed = true := by simp [WriterState.isClosed, hclosed]
  cases t with
  | cancel =>
    cases op <;> simp
  | poll input =>
    cases op
    case acceptExpected r =>
      simp only [turn, execute, violation, failed]
      (repeat' split) <;> simp <;> split <;> omega
    all_goals
      simp only [turn, execute, violation, failed, pollShutdown, hisClosed, hclosed, if_true]
      (repeat' split) <;> simp

theorem turn_early (hclosed : .closed ∉ s.log) (h : lateAccepted s.log = 0) :
    lateAccepted (turn config op t s).1.log = 0 := by
  cases t with
  | cancel =>
    cases op <;> simp [h]
  | poll input =>
    cases op <;> simp only [turn, execute, violation] <;> (repeat' split) <;> simp [h, hclosed]

theorem turn_placed (hclosed : .closed ∈ s.log ↔ s.phase = .closed) (h : op.Placed s.log) :
    ∀ op' ∈ (turn config op t s).2, op'.Placed (turn config op t s).1.log := by
  cases t with
  | cancel => cases op <;> simp_all [WriterOp.Placed]
  | poll input =>
    cases op
    case acceptExpected r =>
      simp only [turn, execute, violation, failed]
      (repeat' split) <;> simp_all [WriterOp.Placed, Handed]
    case materialize r =>
      simp only [turn, execute, failed]
      split
      · simpa [WriterOp.Placed, QueuedWrite.materialize_completion] using h
      · simp [WriterOp.Placed]
    case pollFence transfer created =>
      simp only [turn, execute]
      split
      case isTrue => simp [WriterOp.Placed]
      case isFalse hopen =>
        -- past the fence: the writer is open, so the request was handed over in time
        rintro op' hop
        rw [List.mem_singleton.mp hop]
        exact Handed.open h (by simpa [hclosed, WriterState.isClosed] using hopen)
    case pollWrite transfer created =>
      have hmono := HandedOpen.mono h (turn_grows config (.pollWrite transfer created) (.poll input) s).log
      revert hmono
      simp only [turn, execute]
      (repeat' split) <;> simp [WriterOp.Placed]
    case awaitWrite transfer created =>
      simp only [turn, execute]
      split
      · simpa [WriterOp.Placed] using HandedOpen.handed h
      · simpa [WriterOp.Placed] using h
    case close | failPending =>
      simp only [turn, execute]
      split
      · simp
      · exact placed_completes trivial
    all_goals
      simp only [turn, execute, violation, failed, pollShutdown]
      (repeat' split) <;> simp_all [WriterOp.Placed]

theorem turn_passed {c : Nat} (h : .passed c ∈ (turn config op t s).1.log) :
    .passed c ∈ s.log ∨ ∃ transfer created, op = .pollWrite transfer created ∧
      transfer.request.completion = c := by
  revert h
  cases t with
  | cancel => cases op <;> simp +contextual
  | poll input =>
    cases op
    case pollWrite transfer created =>
      simp only [turn, execute]
      (repeat' split) <;> simp [eq_comm] <;>
        first | exact Or.symm | exact Or.inl
    all_goals
      simp only [turn, execute, violation]
      (repeat' split) <;> simp +contextual

theorem turn_written {c : Nat} (h : .completed c .written ∈ (turn config op t s).1.log) :
    .completed c .written ∈ s.log ∨ ∃ r, op = .complete r .written ∧ r.completion = c := by
  revert h
  cases t with
  | cancel => cases op <;> simp +contextual
  | poll input =>
    cases op
    case complete r outcome =>
      intro h
      rcases List.mem_cons.mp h with heq | hold
      · cases heq
        exact .inr ⟨r, rfl, rfl⟩
      · exact .inl hold
    all_goals
      simp only [turn, execute, violation]
      (repeat' split) <;> simp +contextual

/-- the write of the request has been reported as what it may have done, or was cancelled -/
def Sealed (c : Nat) (log : List WriterEvent) : Prop :=
  (∃ outcome, outcome.unsent = false ∧ .completed c outcome ∈ log) ∨ .cancelled c ∈ log

theorem Sealed.mono {c : Nat} {log log' : List WriterEvent} (h : Sealed c log)
    (hlog : log <:+ log') : Sealed c log' := by
  rcases h with ⟨outcome, hsent, hmem⟩ | hmem
  · exact .inl ⟨outcome, hsent, hlog.subset hmem⟩
  · exact .inr (hlog.subset hmem)

theorem turn_writing (c : Nat) :
    op.writing c ≤ weight (WriterOp.writing c) (turn config op t s).2 ∨
      Sealed c (turn config op t s).1.log := by
  cases t with
  | cancel =>
    cases op
    case awaitWrite transfer created =>
      by_cases hc : transfer.request.completion = c
      · exact .inr (.inr (hc ▸ List.mem_cons_self))
      · left
        simp [QueuedWrite.heldFor, isFor, hc]
    all_goals simp
  | poll input =>
    cases op
    case complete r outcome =>
      by_cases hc : r.completion = c
      · by_cases hsent : outcome.unsent = true
        · left
          simp [hsent]
        · exact .inr (.inl ⟨outcome, Bool.not_eq_true _ ▸ hsent, hc ▸ List.mem_cons_self⟩)
      · left
        simp [QueuedWrite.heldFor, isFor, hc]
    all_goals
      simp only [turn, execute]
      (repeat' split) <;> simp [SinkWriteOutcome.unsent]

theorem turn_closing :
    op.closing ≤ weight WriterOp.closing (turn config op t s).2 ∨
      (turn config op t s).1.phase = .closed := by
  cases t with
  | cancel => cases op <;> simp
  | poll input =>
    cases op <;> simp only [turn, execute, violation, failed, pollShutdown] <;> (repeat' split) <;>
      simp_all [WriterState.isClosed]

theorem turn_failing :
    op.failing ≤ weight WriterOp.failing (turn config op t s).2 ∨
      (turn config op t s).1.closed = true := by
  cases t with
  | cancel => cases op <;> simp
  | poll input =>
    cases op <;> simp only [turn, execute, violation, failed, pollShutdown] <;> (repeat' split) <;> simp_all

theorem turn_failed (h : (turn config op t s).1.closed = true) :
    s.closed = true ∨ op.ending = 1 := by
  revert h
  cases t with
  | cancel => cases op <;> simp +contextual
  | poll input =>
    cases op <;> simp only [turn, execute, violation] <;> (repeat' split) <;> simp +contextual

/-- what a writer that is closed holds: nothing to reorder, and a closed channel -/
def Emptied (s : WriterState) : Prop :=
  s.closed = true → s.receiverClosed = true ∧ s.reordered = []

theorem turn_emptied (h : Emptied s) (hlive : s.closed = true → op.live = 0) :
    Emptied (turn config op t s).1 := by
  unfold Emptied at h ⊢
  cases t with
  | cancel => cases op <;> simpa using h
  | poll input =>
    cases op <;> simp only [turn, execute, violation] <;> (repeat' split) <;> simp_all

theorem turn_drained (h : (turn config op t s).1.receiverClosed = true) :
    (s.receiverClosed = true ∧ (s.channel = [] → (turn config op t s).1.channel = []) ∧
        (op.draining ≤ weight WriterOp.draining (turn config op t s).2 ∨
          (turn config op t s).1.channel = [])) ∨
      1 ≤ weight WriterOp.draining (turn config op t s).2 := by
  revert h
  cases t with
  | cancel =>
    cases op <;> simp +contextual
  | poll input =>
    cases op <;> simp only [turn, execute, violation, failed, pollShutdown] <;> (repeat' split) <;> simp_all

end

end Sinan.Gateway
