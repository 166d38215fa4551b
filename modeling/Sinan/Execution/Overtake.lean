import Sinan.Execution.Lifecycle

/-!
# Command lifecycle: an event that overtakes its receipt

The receipt path keeps a late receipt beside a stronger status, so that an execution event may arrive
first.  For the events that could also follow the receipt this never works: the table of every
dispatched status refuses ACCEPTED and REJECTED before the receipt, and the statuses it does let
through, EXPIRED and CANCELLED, are missing from the ones that take a late receipt.
-/

namespace Sinan.Execution

open Lib

section
variable {F : Type}

/-- the dispatched statuses a receipt is still expected in -/
def awaitsReceipt : ExecutionCommandStatus → Bool
  | .dispatched | .deliveryUnconfirmed | .reconciling | .manualReconciliationRequired => true
  | _ => false

variable {status : ExecutionCommandStatus}

theorem eventStatus_ne (h : awaitsReceipt status = true) (e : ExecutionEventStatus) :
    eventStatus e ≠ status ∧ eventStatus e ≠ .commandReceived := by
  cases e <;> cases status <;> revert h <;> decide

theorem awaitsReceipt_allowed (h : awaitsReceipt status = true) :
    transitionIsAllowed status .commandReceived = true := by
  cases status <;> revert h <;> decide

/-- an event that both a received and an unreceived command accept ends the command where no late
receipt is taken -/
theorem overtaking_status (h : awaitsReceipt status = true) {e : ExecutionEventStatus}
    (hafter : transitionIsAllowed .commandReceived (eventStatus e) = true)
    (hfirst : transitionIsAllowed status (eventStatus e) = true) :
    transitionIsAllowed (eventStatus e) .commandReceived = false ∧
      acceptsLateReceipt (eventStatus e) = false := by
  cases e <;> cases status <;> revert h hafter hfirst <;> decide

variable [F64 F] {command : ExecutionCommand F} {s : ExecutionCommandState} {r : CommandReceived}

theorem applied_event {s' : ExecutionCommandState} {e : ExecutionEvent F}
    (h : Applied command s (.executionEvent e) s') :
    transitionIsAllowed s.status (eventStatus e.status) = true ∧
      s'.status = eventStatus e.status ∧ s'.commandReceivedAt = s.commandReceivedAt := by
  cases h with
  | receipt received target version isReceipt => exact (nomatch isReceipt)
  | advance target version evidenceAt recorded noReceipt claim newer allowed records =>
    have htarget : target = eventStatus e.status := evidenceTarget_status claim
    have hrecorded : { s with status := target, updatedAt := version } = recorded :=
      pure_ok.mp records
    obtain ⟨-, -, -, -, -, c6, -, -, -, c10, -⟩ := completeAt_frame recorded evidenceAt
    rw [c6, c10, ← hrecorded, ← htarget]
    exact ⟨allowed, rfl, rfl⟩

theorem applied_receipt {s' : ExecutionCommandState}
    (h : Applied command s (.receivedRecorded r) s') :
    s.commandReceivedAt = none ∧ receiptMoves s s'.status := by
  cases h with
  | receipt received target version isReceipt missing newer moves => exact ⟨missing, moves⟩
  | advance target version evidenceAt recorded noReceipt => exact (nomatch noReceipt)

theorem receiptMoves_awaiting {target : ExecutionCommandStatus} (h : awaitsReceipt s.status = true)
    (hm : receiptMoves s target) : target = .commandReceived := by
  rcases hm with ⟨ht, -⟩ | ⟨-, hrefused, -⟩
  · exact ht
  · rw [awaitsReceipt_allowed h] at hrefused
    exact (nomatch hrefused)

/-- a state without a receipt whose status neither moves to COMMAND_RECEIVED nor takes it late refuses
every receipt -/
theorem receipt_refused (hnone : s.commandReceivedAt = none)
    (hmove : transitionIsAllowed s.status .commandReceived = false)
    (hlate : acceptsLateReceipt s.status = false) (o : CommandTransitionOutcome) :
    transitionCommand command s (.receivedRecorded r) ≠ .ok o := by
  intro h
  obtain ⟨-, ⟨-, hrepeats⟩ | ⟨s', -, happlied, -⟩⟩ := commandEffect h
  · rcases hrepeats with ⟨-, hsome⟩ | ⟨hreceipt, -⟩
    · rw [hnone] at hsome
      exact (nomatch hsome)
    · exact (nomatch hreceipt)
  · rcases (applied_receipt happlied).2 with ⟨-, hallowed⟩ | ⟨-, -, hlate'⟩
    · rw [hmove] at hallowed
      exact (nomatch hallowed)
    · rw [hlate] at hlate'
      exact (nomatch hlate')

/-- applying `e` and then the receipt `r` succeeds and ends where `s₂` is -/
def CommutesTo (command : ExecutionCommand F) (s : ExecutionCommandState) (r : CommandReceived)
    (e : ExecutionEvent F) (s₂ : ExecutionCommandState) : Prop :=
  ∃ o₁ o₂, transitionCommand command s (.executionEvent e) = .ok o₁ ∧
    transitionCommand command o₁.state (.receivedRecorded r) = .ok o₂ ∧
    o₂.state.status = s₂.status ∧ o₂.state.commandReceivedAt = s₂.commandReceivedAt ∧
    o₂.state.completedAt = s₂.completedAt

theorem overtaking_refused {s₁ s₂ : ExecutionCommandState} {e : ExecutionEvent F}
    (hawaits : awaitsReceipt s.status = true)
    (hr : transitionCommand command s (.receivedRecorded r) = .ok (.applied s₁))
    (he : transitionCommand command s₁ (.executionEvent e) = .ok (.applied s₂)) :
    ¬ CommutesTo command s r e s₂ := by
  rintro ⟨o₁, o₂, hfirst, hthen, -⟩
  -- the receipt first: it was missing, and moved the status to COMMAND_RECEIVED
  obtain ⟨-, ⟨hdup, -⟩ | ⟨_, heq, hreceipt, -⟩⟩ := commandEffect hr
  · exact (nomatch hdup)
  cases heq
  obtain ⟨hnone, hmoves⟩ := applied_receipt hreceipt
  have hreceived : s₁.status = .commandReceived := receiptMoves_awaiting hawaits hmoves
  -- the event after it: COMMAND_RECEIVED accepts it
  obtain ⟨-, ⟨hdup, -⟩ | ⟨_, heq, hevent, -⟩⟩ := commandEffect he
  · exact (nomatch hdup)
  cases heq
  have hafter := (applied_event hevent).1
  rw [hreceived] at hafter
  -- the event first: it cannot repeat the status, so it moved along the table
  obtain ⟨-, ⟨-, hrepeats⟩ | ⟨s', rfl, happlied, -⟩⟩ := commandEffect hfirst
  · rcases hrepeats with ⟨hreceipt, -⟩ | ⟨-, hsame⟩
    · exact (nomatch hreceipt)
    · exact (eventStatus_ne hawaits e.status).1 hsame
  obtain ⟨hallowed, hstatus, hkept⟩ := applied_event happlied
  obtain ⟨hmove, hlate⟩ := overtaking_status hawaits hafter hallowed
  rw [← hstatus] at hmove hlate
  exact receipt_refused (hkept.trans hnone) hmove hlate o₂ hthen

/-- In every reachable state that awaits its receipt, a receipt and an event that apply in this order
never commute: applied in the other order, one of the two is refused. -/
theorem overtaking_event_never_commutes (command : ExecutionCommand F) (createdAt : Int)
    (s₀ : ExecutionCommandState) (_start : initialCommandState command createdAt = .ok s₀)
    (evidence : List (CommandEvidence F)) (k : Nat)
    (hawaits : awaitsReceipt (before (commandStep command) s₀ evidence k).status = true)
    (r : CommandReceived) (e : ExecutionEvent F) (s₁ s₂ : ExecutionCommandState)
    (hr : transitionCommand command (before (commandStep command) s₀ evidence k)
      (.receivedRecorded r) = .ok (.applied s₁))
    (he : transitionCommand command s₁ (.executionEvent e) = .ok (.applied s₂)) :
    ¬ CommutesTo command (before (commandStep command) s₀ evidence k) r e s₂ :=
  overtaking_refused hawaits hr he

end

/-! ## the shortest case: DISPATCHED, and an ACCEPTED event -/

/-- the state after a dispatch at 20 -/
def sampleDispatched : ExecutionCommandState :=
  { sampleState with status := .dispatched, deliveryAttempts := 1, dispatchedAt := some 20,
                     updatedAt := 20 }

def sampleReceived : ExecutionCommandState :=
  { sampleDispatched with status := .commandReceived, commandReceivedAt := some 30, updatedAt := 30 }

def sampleAccepted : ExecutionCommandState :=
  { sampleReceived with status := .accepted, updatedAt := 40 }

/-- receipt at 30 and ACCEPTED at 40 apply; ACCEPTED first is an invalid transition -/
theorem accepted_overtakes_receipt_fails :
    before (commandStep sampleCommand) sampleState [.dispatched 20] 1 = sampleDispatched ∧
      transitionCommand sampleCommand sampleDispatched (.receivedRecorded (sampleReceipt 30))
        = .ok (.applied sampleReceived) ∧
      transitionCommand sampleCommand sampleReceived
        (.executionEvent (sampleEvent .accepted 40 none)) = .ok (.applied sampleAccepted) ∧
      transitionCommand sampleCommand sampleDispatched
        (.executionEvent (sampleEvent .accepted 40 none))
        = .error (.invalidTransition .dispatched .accepted) ∧
      ¬ CommutesTo sampleCommand sampleDispatched (sampleReceipt 30)
        (sampleEvent .accepted 40 none) sampleAccepted := by
  have hfirst : transitionCommand sampleCommand sampleDispatched
      (.executionEvent (sampleEvent .accepted 40 none))
      = .error (.invalidTransition .dispatched .accepted) := by decide +kernel
  refine ⟨by decide +kernel, by decide +kernel, by decide +kernel, hfirst, ?_⟩
  rintro ⟨o₁, o₂, h, -⟩
  rw [hfirst] at h
  exact (nomatch h)

theorem overtaking_event_never_commutes_accepted :
    ¬ CommutesTo sampleCommand (before (commandStep sampleCommand) sampleState [.dispatched 20] 1)
      (sampleReceipt 30) (sampleEvent .accepted 40 none) sampleAccepted :=
  overtaking_event_never_commutes sampleCommand 10 sampleState (by decide +kernel) [.dispatched 20]
    1 (by decide +kernel) (sampleReceipt 30) (sampleEvent .accepted 40 none) sampleReceived
    sampleAccepted (by decide +kernel) (by decide +kernel)

end Sinan.Execution
