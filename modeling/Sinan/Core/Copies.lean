import Sinan.Core.Worker
import Sinan.Gateway.Stored

/-!
# Copies of a frame

Where the frames of a message are, in every state of every run: at most one of them is held by a sink
or handed to a transport, and a message whose frame is about is `Started` in the tables.  A message is
*dead* when it has no frame and will not be given one; whatever tells that nothing of a message was
written tells it of a dead message.
-/

set_option linter.unusedSectionVars false

namespace Sinan.Core

open Lib Execution Store Gateway

section
variable {P F R : Type} [DecidableEq P] [DecidableEq F] [F64 F] (env : Setting P F R)

/-! ## the steps -/

/-- what a task may do in each of its phases -/
inductive TaskChange (w : World P F R) (i : Nat) (now : Int)
    (claimed : ClaimedOutboundDelivery F) : TaskPhase P → TaskCall → World P F R → Prop
  | prepare (hlate : ¬ claimed.Late) :
      TaskChange w i now claimed .claimed .prepare (prepareTask env w i now claimed)
  | late {config : DurableOutboundConfig} (hlate : claimed.Late) :
      TaskChange w i now claimed .claimed (.finish config)
        (finishTask env w i now config noDelivery)
  | claim {d : StoredOutboundDelivery P} :
      TaskChange w i now claimed (.prepared d) .claimOutbox (claimTask env w i now d)
  | offer {d : StoredOutboundDelivery P} {live : Bool} :
      TaskChange w i now claimed (.offering d) (.offer live) (offerTask w i now d live)
  | report {d : StoredOutboundDelivery P} {outcome : SinkWriteOutcome} :
      TaskChange w i now claimed (.writing d) (.report outcome) (reportTask w i now d outcome)
  | complete {d : StoredOutboundDelivery P} {outcome : SinkWriteOutcome} :
      TaskChange w i now claimed (.written d outcome) .complete
        (completeTask env w i now d outcome)
  | reload {m : MessageId} {observedAt : Int} :
      TaskChange w i now claimed (.reloading m observedAt) .reload
        (reloadTask env w i now m observedAt)
  | finish {answer : Delivery DeliveryOutcome} {config : DurableOutboundConfig} :
      TaskChange w i now claimed (.answered answer) (.finish config)
        (finishTask env w i now config answer)

inductive WorldChange (w : World P F R) : WorldCall P F R → World P F R → Prop
  | still {call : WorldCall P F R} : WorldChange w call w
  | claim {config : DurableOutboundConfig} {now : Int} :
      WorldChange w (.claim config now) (claimStep env w config now)
  | task {i : Nat} {now : Int} {call : TaskCall} {claimed : ClaimedOutboundDelivery F}
      {w' : World P F R} (hclaimed : w.core.claims[i]? = some claimed)
      (hclock : (w.tasks i).clock ≤ now)
      (h : TaskChange env w i now claimed (w.tasks i).phase call w') :
      WorldChange w (.task i now call) w'
  | hand {m : MessageId} (hm : m ∈ w.queue) :
      WorldChange w (.hand m) { w with queue := w.queue.erase m, wire := m :: w.wire }
  | store {call : StoreCall P} (hforeign : foreign call = true) :
      WorldChange w (.store call) { w with delivery := storeStep env.wire w.delivery call }
  | core {call : ProcessorCall P F R} (hbusiness : business call = true) :
      WorldChange w (.core call)
        { w with core := processorStep env.payloads env.runStore w.core call }

theorem taskStep_change {w : World P F R} {i : Nat} {now : Int}
    {claimed : ClaimedOutboundDelivery F} (hclaimed : w.core.claims[i]? = some claimed)
    (hclock : (w.tasks i).clock ≤ now) (call : TaskCall) :
    WorldChange env w (.task i now call)
      (taskStep env w i now claimed (w.tasks i).phase call) := by
  have htask : ∀ {phase : TaskPhase P} {w' : World P F R}, (w.tasks i).phase = phase →
      TaskChange env w i now claimed phase call w' → WorldChange env w (.task i now call) w' :=
    fun hphase h => .task hclaimed hclock (hphase ▸ h)
  cases hphase : (w.tasks i).phase <;> cases call <;> simp only [taskStep]
  case claimed.prepare =>
    split
    · exact .still
    · rename_i hlate
      exact htask hphase (.prepare hlate)
  case claimed.finish config =>
    split
    · rename_i hlate
      exact htask hphase (.late hlate)
    · exact .still
  case prepared.claimOutbox => exact htask hphase .claim
  case offering.offer => exact htask hphase .offer
  case writing.report => exact htask hphase .report
  case written.complete => exact htask hphase .complete
  case reloading.reload => exact htask hphase .reload
  case answered.finish => exact htask hphase .finish
  all_goals exact .still

theorem worldStep_change (w : World P F R) (call : WorldCall P F R) :
    WorldChange env w call (worldStep env w call) := by
  cases call with
  | claim config now => exact .claim
  | task i now call =>
    simp only [worldStep]
    split
    · exact .still
    · rename_i claimed hclaimed
      split
      · rename_i hclock
        exact taskStep_change env hclaimed hclock call
      · exact .still
  | hand m =>
    simp only [worldStep, handFrame]
    split
    · rename_i hm
      exact .hand hm
    · exact .still
  | store call =>
    simp only [worldStep]
    split
    · rename_i hforeign
      exact .store hforeign
    · exact .still
  | core call =>
    simp only [worldStep]
    split
    · rename_i hbusiness
      exact .core hbusiness
    · exact .still

end

/-! ## frames -/

section
variable {P F R : Type}

/-- the message a task is about to offer -/
def TaskPhase.offers : TaskPhase P → Option MessageId
  | .offering d => some d.outbox.messageId
  | _ => none

/-- the message whose outcome the sink still owes the task, or will owe it -/
def TaskPhase.unreported : TaskPhase P → Option MessageId
  | .offering d | .writing d => some d.outbox.messageId
  | _ => none

/-- the message whose write the task has not completed yet -/
def TaskPhase.holds : TaskPhase P → Option MessageId
  | .offering d | .writing d | .written d _ => some d.outbox.messageId
  | _ => none

theorem TaskPhase.holds_of_unreported {phase : TaskPhase P} {m : MessageId}
    (h : phase.unreported = some m) : phase.holds = some m := by
  cases phase with
  | offering d | writing d => exact h
  | _ => cases h

theorem TaskPhase.unreported_of_offers {phase : TaskPhase P} {m : MessageId}
    (h : phase.offers = some m) : phase.unreported = some m := by
  cases phase with
  | offering d => exact h
  | _ => cases h

/-- a frame of the message is handed to a transport, held by a sink, or about to be offered -/
def World.Live (w : World P F R) (m : MessageId) : Prop :=
  m ∈ w.wire ∨ m ∈ w.queue ∨ ∃ i, (w.tasks i).phase.offers = some m

/-- the message has no frame and gets none -/
def World.Dead (w : World P F R) (m : MessageId) : Prop := ¬ w.Live m ∧ Settled w.delivery m

/-- the answer says that nothing of the message was written: every rejection does, but for the one by
the transport of the peer -/
def Disclaims (m : MessageId) : Delivery DeliveryOutcome → Prop
  | .ok (.definitelyNotWritten failure) => failure.messageId = m
  | .ok (.rejected rejection) => rejection.messageId = m ∧
    ∀ reason, rejection.reason ≠ .transportRejected reason
  | _ => False

variable {answer : Delivery DeliveryOutcome}

theorem disclaims_of_unsent {m : MessageId} (h : Unsent m answer) : Disclaims m answer := by
  unfold Unsent at h
  split at h
  · exact h
  · refine ⟨h.1, fun reason hreason => ?_⟩
    have hretry := h.2
    rw [hreason] at hretry
    cases hretry
  · exact h.elim

theorem disclaims_of_expired {m : MessageId} (h : Expired m answer) : Disclaims m answer := by
  unfold Expired at h
  split at h
  · refine ⟨h.1, fun reason hreason => ?_⟩
    have hexpired := h.2
    rw [hreason] at hexpired
    cases hexpired
  · exact h.elim

structure Copies (w : World P F R) : Prop where
  once : ∀ m, w.wire.count m + w.queue.count m ≤ 1
  offered : ∀ i m, (w.tasks i).phase.offers = some m → m ∉ w.wire ∧ m ∉ w.queue
  writing : ∀ i d, (w.tasks i).phase = .writing d →
    d.outbox.messageId ∈ w.wire ∨ d.outbox.messageId ∈ w.queue
  holder : ∀ i j m, (w.tasks i).phase.holds = some m → (w.tasks j).phase.holds = some m → i = j
  held : ∀ i m, (w.tasks i).phase.holds = some m → Settled w.delivery m
  started : ∀ m, w.Live m → Started w.delivery m
  reported : ∀ m ∈ w.reported, m ∈ w.wire ∨ m ∈ w.queue
  silent : ∀ i m, (w.tasks i).phase.unreported = some m → m ∉ w.reported
  unwritten : ∀ i d outcome, (w.tasks i).phase = .written d outcome →
    unwritten outcome = true → w.Dead d.outbox.messageId
  answered : ∀ i answer m, (w.tasks i).phase = .answered answer → Disclaims m answer → w.Dead m

variable {w w' : World P F R}

theorem started_not_pending [DecidableEq P] {t : DeliveryTables P} {m : MessageId}
    {o : StoredWireOutbox P} (h : Started t m) (hget : t.outboxes.get m = some o) :
    o.status ≠ .pending := by
  obtain ⟨o', x, hget', -, hbegun, -⟩ := h
  rw [hget] at hget'
  cases hget'
  rcases hbegun with hs | hs | hs | hs <;> rw [hs] <;> decide

theorem settled_not_pending [DecidableEq P] {t : DeliveryTables P} {m : MessageId}
    {o : StoredWireOutbox P} (h : Settled t m) (hget : t.outboxes.get m = some o) :
    o.status ≠ .pending := by
  rcases h with ⟨o', hget', hstatus⟩ | ⟨hnone, -⟩
  · rw [hget] at hget'
    cases hget'
    exact hstatus
  · rw [hget] at hnone
    cases hnone

/-- A step that moves no frame: every task keeps its phase or gives its message up, and what it is
answered is about dead messages. -/
structure Quiet (w w' : World P F R) : Prop where
  wire : w'.wire = w.wire
  queue : w'.queue = w.queue
  reported : w'.reported = w.reported
  tasks : ∀ i, (w'.tasks i).phase = (w.tasks i).phase ∨ ((w'.tasks i).phase.holds = none ∧
    ∀ answer m, (w'.tasks i).phase = .answered answer → Disclaims m answer → w'.Dead m)

theorem Quiet.holds (h : Quiet w w') {i : Nat} {m : MessageId}
    (hm : (w'.tasks i).phase.holds = some m) : (w'.tasks i).phase = (w.tasks i).phase := by
  rcases h.tasks i with hsame | ⟨hnone, -⟩
  · exact hsame
  · rw [hm] at hnone
    cases hnone

theorem Quiet.offers (h : Quiet w w') {i : Nat} {m : MessageId}
    (hm : (w'.tasks i).phase.offers = some m) : (w.tasks i).phase.offers = some m := by
  have hsame := h.holds (TaskPhase.holds_of_unreported (TaskPhase.unreported_of_offers hm))
  rw [← hsame]
  exact hm

theorem Quiet.live (h : Quiet w w') {m : MessageId} (hm : w'.Live m) : w.Live m := by
  rcases hm with hwire | hqueue | ⟨i, hi⟩
  · exact .inl (h.wire ▸ hwire)
  · exact .inr (.inl (h.queue ▸ hqueue))
  · exact .inr (.inr ⟨i, h.offers hi⟩)

theorem Quiet.dead [DecidableEq P] (h : Quiet w w') {unsent created : MessageId → Prop}
    (hsteady : Steady w.delivery w'.delivery unsent created) {m : MessageId} (hm : w.Dead m) :
    w'.Dead m :=
  ⟨fun hlive => hm.1 (h.live hlive), hsteady.settled m hm.2⟩

theorem Copies.quiet [DecidableEq P] (h : Copies w) (hq : Quiet w w')
    {unsent created : MessageId → Prop} (hsteady : Steady w.delivery w'.delivery unsent created)
    (hunsent : ∀ m, unsent m → ¬ w.Live m) : Copies w' where
  once := by
    intro m
    rw [hq.wire, hq.queue]
    exact h.once m
  offered := by
    intro i m hm
    rw [hq.wire, hq.queue]
    exact h.offered i m (hq.offers hm)
  writing := by
    intro i d hd
    have hsame := hq.holds (i := i) (m := d.outbox.messageId) (by rw [hd]; rfl)
    rw [hq.wire, hq.queue]
    exact h.writing i d (hsame.symm.trans hd)
  holder := by
    intro i j m hi hj
    have hsi := hq.holds hi
    have hsj := hq.holds hj
    exact h.holder i j m (hsi ▸ hi) (hsj ▸ hj)
  held := by
    intro i m hi
    have hsi := hq.holds hi
    exact hsteady.settled m (h.held i m (hsi ▸ hi))
  started := by
    intro m hm
    have hlive := hq.live hm
    exact hsteady.started m (fun hu => hunsent m hu hlive) (h.started m hlive)
  reported := by
    intro m hm
    rw [hq.wire, hq.queue]
    exact h.reported m (hq.reported ▸ hm)
  silent := by
    intro i m hm
    have hsame := hq.holds (TaskPhase.holds_of_unreported hm)
    rw [hq.reported]
    exact h.silent i m (hsame ▸ hm)
  unwritten := by
    intro i d outcome hd hu
    have hsame := hq.holds (i := i) (m := d.outbox.messageId) (by rw [hd]; rfl)
    exact hq.dead hsteady (h.unwritten i d outcome (hsame.symm.trans hd) hu)
  answered := by
    intro i answer m hanswer hm
    rcases hq.tasks i with hsame | ⟨-, hdead⟩
    · exact hq.dead hsteady (h.answered i answer m (hsame.symm.trans hanswer) hm)
    · exact hdead answer m hanswer hm

end

/-! ## answers -/

section
variable {P F R : Type} [DecidableEq P] [DecidableEq F] [F64 F] {w w' : World P F R}
  {t t' : DeliveryTables P} {m : MessageId}

/-- what the answer says was not written is settled and not started -/
def Denies (t : DeliveryTables P) (answer : Delivery DeliveryOutcome) : Prop :=
  ∀ m, Disclaims m answer → Settled t m ∧ ¬ Started t m

variable {outcome : DeliveryOutcome} {d : StoredOutboundDelivery P} {observedAt now : Int}

theorem disclaims_message (h : Disclaims m (.ok outcome)) :
    outcomeMessage outcome = m := by
  cases outcome with
  | sent => exact h.elim
  | unconfirmed => exact h.elim
  | rejected r => exact h.1
  | definitelyNotWritten f => exact h

theorem tells_denies (hstored : Stored t m d) (h : Tells d observedAt outcome) :
    Denies t (.ok outcome) := by
  intro k hk
  have hmessage := disclaims_message hk
  cases h with
  | sent => exact hk.elim
  | unconfirmed => exact hk.elim
  | refused => exact absurd rfl (hk.2 _)
  | unwritten hm _ hstatus =>
    have hkm : k = m := by rw [← hmessage, hm, hstored.messageId]
    subst hkm
    constructor
    · refine .inl ⟨d.outbox, hstored.outbox, ?_⟩
      rcases hstatus with hs | ⟨hs, -⟩ <;> rw [hs] <;> decide
    · rintro ⟨o, x, hget, hseek, hbegun⟩
      rw [hstored.outbox] at hget
      rw [hstored.attempt] at hseek
      cases hget
      cases hseek
      rcases hstatus with hs | ⟨-, hs | hs⟩
      · have hbegun' := hbegun.1
        rw [hs] at hbegun'
        simp at hbegun'
      all_goals
        have hbegun' := hbegun.2
        rw [hs] at hbegun'
        simp at hbegun'

theorem durable_denies {timeout : Nat} (hstored : Stored t m d) :
    Denies t (durableDeliveryOutcome d observedAt timeout) := by
  cases houtcome : durableDeliveryOutcome d observedAt timeout with
  | error e => exact fun k hk => hk.elim
  | ok outcome => exact tells_denies hstored (durable_tells houtcome)

theorem error_denies (e : DeliveryInfrastructureError) : Denies t (.error e) :=
  fun _ h => h.elim

theorem preparation_denies {validation : RequestCheck}
    (h : Preparation t t' m now validation (.outcome outcome)) : Denies t' (.ok outcome) := by
  cases h with
  | told hstored hsame houtcome =>
    rw [hsame]
    exact tells_denies hstored (durable_tells houtcome)
  | rejected hnew hm houtboxes hgrow hattempt =>
    intro k hk
    have hkm : k = m := hk.1.symm.trans hm
    rw [← houtboxes] at hnew
    subst hkm
    refine ⟨.inr ⟨hnew, hattempt⟩, ?_⟩
    rintro ⟨o, x, hget, -⟩
    rw [hnew] at hget
    cases hget

theorem reload_denies {codec : WireCodec P} {a : GatewayOutboundAdapter} :
    Denies t (reloadExisting codec a t m observedAt) := by
  cases hreload : reloadExisting codec a t m observedAt with
  | error e => exact error_denies e
  | ok outcome =>
    simp only [reloadExisting, bind_ok, fromStore_ok, need_ok] at hreload
    obtain ⟨found, hfound, d, rfl, houtcome⟩ := hreload
    exact tells_denies ((fetchOutboundDelivery_ok hfound).1 d rfl) (durable_tells houtcome)

/-! ## quiet steps -/

variable {i : Nat} {phase : TaskPhase P}

omit [DecidableEq P] [DecidableEq F] [F64 F] in
theorem turn_tasks (w : World P F R) (i j : Nat) (now : Int) (phase : TaskPhase P) :
    (w.turn i now phase).tasks j = if j = i then ⟨now, phase⟩ else w.tasks j := by
  by_cases h : j = i
  · rw [if_pos h, h]
    exact Function.update_self i _ _
  · rw [if_neg h]
    exact Function.update_of_ne h _ _

omit [DecidableEq P] [DecidableEq F] [F64 F] in
/-- what holds of the new phase and of the phases of the other tasks holds of all after the turn -/
theorem forall_turn {p : Nat → TaskPhase P → Prop} {w₁ : World P F R} (htasks : w₁.tasks = w.tasks)
    (hself : p i phase) (hothers : ∀ j, j ≠ i → p j (w.tasks j).phase) (j : Nat) :
    p j ((w₁.turn i now phase).tasks j).phase := by
  rw [turn_tasks, htasks]
  split
  · rename_i hji
    rw [hji]
    exact hself
  · rename_i hji
    exact hothers j hji

theorem Copies.turn (h : Copies w) {core : Processor P F R} {unsent created : MessageId → Prop}
    (hsteady : Steady w.delivery t unsent created) (hunsent : ∀ m, unsent m → ¬ w.Live m)
    (hholds : phase.holds = none) (hanswer : ∀ answer, phase = .answered answer → Denies t answer) :
    Copies (({ w with core := core, delivery := t } : World P F R).turn i now phase) := by
  -- no frame moves, so what is live now was live before
  have hlive : ∀ m, (({ w with core := core, delivery := t } : World P F R).turn i now phase).Live m →
      w.Live m := by
    rintro m (hwire | hqueue | ⟨j, hj⟩)
    · exact .inl hwire
    · exact .inr (.inl hqueue)
    · rw [turn_tasks] at hj
      split at hj
      · have hnone := TaskPhase.holds_of_unreported (TaskPhase.unreported_of_offers hj)
        rw [hholds] at hnone
        cases hnone
      · exact .inr (.inr ⟨j, hj⟩)
  refine h.quiet ⟨rfl, rfl, rfl, fun j => ?_⟩ hsteady hunsent
  rw [turn_tasks]
  by_cases hj : j = i
  · rw [if_pos hj]
    refine .inr ⟨hholds, fun answer m hphase hm => ?_⟩
    obtain ⟨hsettled, hnot⟩ := hanswer answer hphase m hm
    refine ⟨fun hnow => ?_, hsettled⟩
    have hbefore := hlive m hnow
    exact hnot (hsteady.started m (fun hu => hunsent m hu hbefore) (h.started m hbefore))
  · rw [if_neg hj]
    exact .inl rfl

omit [DecidableEq P] [DecidableEq F] [F64 F] in
theorem no_unsent {w : World P F R} : ∀ m : MessageId, False → ¬ w.Live m :=
  fun _ hm => hm.elim

theorem foreign_steady {codec : WireCodec P} {call : StoreCall P} (h : foreign call = true) :
    Steady t (storeStep codec t call) (fun _ => False) (fun _ => False) := by
  unfold storeStep
  split
  · rename_i t' hcall
    rcases runCall_writes codec hcall with hwrites | ⟨rows, rfl⟩
    · have hquiet : ¬ (callLicence call).creates ∧ ∀ m, ¬ (callLicence call).unsent m := by
        cases call <;> first
          | exact ⟨id, fun _ => id⟩
          | cases h
      have hsteady := writes_steady hwrites hquiet.1
      exact ⟨fun m _ => hsteady.started m (hquiet.2 m), hsteady.settled, hsteady.known⟩
    · exact ⟨fun _ _ hs => hs, fun _ hs => hs, fun _ o' ho' => .inl ⟨o', ho'⟩⟩
  · exact .refl t _ _

theorem Copies.aside (h : Copies w) {core : Processor P F R} {unsent created : MessageId → Prop}
    (hsteady : Steady w.delivery t unsent created) (hunsent : ∀ m, unsent m → ¬ w.Live m) :
    Copies ({ w with core := core, delivery := t } : World P F R) :=
  h.quiet ⟨rfl, rfl, rfl, fun _ => .inl rfl⟩ hsteady hunsent

/-! ## the steps of a task -/

variable (env : Setting P F R)

theorem validateCommandRequest_ok {request : DeliveryRequest (ExecutionCommand F)}
    (h : validateCommandRequest request now = .ok ()) :
    now < request.message.payload.expiresAt := by
  simp only [validateCommandRequest, bind_ok, exists_unit, reject_ok, not_or, not_le] at h
  obtain ⟨-, -, -, -, -, -, -, hexpires⟩ := h
  exact hexpires

theorem prepareClaimed_ok {claimed : ClaimedOutboundDelivery F} {prepared : PreparedDelivery P}
    (h : prepareClaimed env t now claimed = .ok (prepared, t')) :
    ∃ validation, Preparation t t' claimed.work.messageId now validation prepared ∧
      (validation = .ok () → ∀ time, claimed.expiresAt = some time → now < time) := by
  cases claimed with
  | executionCommand work command state correlationId causationId =>
    simp only [prepareClaimed, Gateway.deliverCommand, bind_ok] at h
    obtain ⟨now', hnow, h⟩ := h
    rw [serverNow_ok hnow] at h
    refine ⟨_, prepareDelivery_ok h, fun hvalid time htime => ?_⟩
    cases htime
    exact validateCommandRequest_ok hvalid
  | reconciliationRequest work run =>
    simp only [prepareClaimed, Gateway.deliverReconciliation, bind_ok] at h
    obtain ⟨now', hnow, h⟩ := h
    rw [serverNow_ok hnow] at h
    exact ⟨_, prepareDelivery_ok h, fun _ _ htime => (by cases htime)⟩

theorem Copies.prepareTask (h : Copies w) (i : Nat) (now : Int)
    (claimed : ClaimedOutboundDelivery F) : Copies (prepareTask env w i now claimed) := by
  unfold Core.prepareTask
  split
  · rename_i prepared t hprepared
    obtain ⟨validation, hpreparation, -⟩ := prepareClaimed_ok env hprepared
    cases prepared with
    | outcome outcome =>
      refine h.turn hpreparation.steady no_unsent rfl fun answer hphase => ?_
      cases hphase
      exact preparation_denies hpreparation
    | write d =>
      exact h.turn hpreparation.steady no_unsent rfl fun answer hphase => (by cases hphase)
  · rename_i error hprepared
    refine h.turn (.refl _ (fun _ => False) (fun _ => False)) no_unsent rfl fun answer hphase => ?_
    cases hphase
    exact error_denies error

/-- The claim of a message that is still pending: no frame of it is about, and the task is the first
to offer it. -/
theorem Copies.offered_claim (h : Copies w) {claim : ClaimWireOutbox} {o : StoredWireOutbox P}
    {x : StoredDeliveryAttempt P} (hclaimed : Claimed w.delivery t claim o x (.claimed d) d) :
    Copies (({ w with delivery := t } : World P F R).turn i now (.offering d)) := by
  have hstored := stored_after hclaimed.write
  have hm : d.outbox.messageId = claim.messageId := hstored.messageId
  have hget := hclaimed.write.outbox
  have hpending := hclaimed.pending.1
  have hsteady : Steady w.delivery t (claimLicence claim).unsent (fun _ => False) :=
    writes_steady (.single (.message hclaimed.write)) id
  have hquiet : ∀ k, ¬ (claimLicence claim).unsent k := fun _ => id
  have hdead : ¬ w.Live claim.messageId := fun hlive =>
    started_not_pending (h.started _ hlive) hget hpending
  have hnot : ∀ k, Settled w.delivery k → k ≠ claim.messageId := by
    intro k hk heq
    rw [heq] at hk
    exact settled_not_pending hk hget hpending
  have hbegun : Begun d.outbox d.attempt := by
    rcases hclaimed.outcome with ⟨-, ho, hx, -⟩ | ⟨hother | hother | hother, -⟩
    · exact ⟨.inl ho, .inl hx⟩
    all_goals cases hother
  have hstarted : Started t claim.messageId :=
    ⟨d.outbox, d.attempt, hstored.outbox, hstored.attempt, hbegun⟩
  have hown : ∀ k, some d.outbox.messageId = some k → k = claim.messageId :=
    fun k hk => (Option.some.inj hk).symm.trans hm
  have hlive : ∀ k, (({ w with delivery := t } : World P F R).turn i now (.offering d)).Live k →
      w.Live k ∨ k = claim.messageId := by
    have hoffers : ∀ j k, ((({ w with delivery := t } : World P F R).turn i now
        (.offering d)).tasks j).phase.offers = some k → w.Live k ∨ k = claim.messageId :=
      forall_turn (p := fun _ phase => ∀ k, phase.offers = some k → w.Live k ∨ k = claim.messageId)
        rfl (fun k hk => .inr (hown k hk)) fun j _ k hk => .inl (.inr (.inr ⟨j, hk⟩))
    rintro k (hwire | hqueue | ⟨j, hj⟩)
    · exact .inl (.inl hwire)
    · exact .inl (.inr (.inl hqueue))
    · exact hoffers j k hj
  have hkept : ∀ k, w.Dead k →
      (({ w with delivery := t } : World P F R).turn i now (.offering d)).Dead k := by
    intro k hk
    refine ⟨fun hnow => ?_, hsteady.settled k hk.2⟩
    rcases hlive k hnow with hbefore | heq
    · exact hk.1 hbefore
    · exact hnot k hk.2 heq
  -- another holder would have left the message settled
  have hholds : ∀ j k, ((({ w with delivery := t } : World P F R).turn i now
      (.offering d)).tasks j).phase.holds = some k → (j = i ∧ k = claim.messageId) ∨
        (k ≠ claim.messageId ∧ (w.tasks j).phase.holds = some k) :=
    forall_turn (p := fun j phase => ∀ k, phase.holds = some k → (j = i ∧ k = claim.messageId) ∨
        (k ≠ claim.messageId ∧ (w.tasks j).phase.holds = some k)) rfl
      (fun k hk => .inl ⟨rfl, hown k hk⟩) fun j _ k hk => .inr ⟨hnot k (h.held j k hk), hk⟩
  refine ⟨h.once, ?_, ?_, fun j l k hj hl => ?_, fun j k hj => ?_, fun k hk => ?_, h.reported, ?_, ?_,
    ?_⟩
  · refine forall_turn (p := fun _ phase => ∀ k, phase.offers = some k → k ∉ w.wire ∧ k ∉ w.queue) rfl
      (fun k hk => ?_) fun j _ => h.offered j
    rw [hown k hk]
    exact ⟨fun hwire => hdead (.inl hwire), fun hqueue => hdead (.inr (.inl hqueue))⟩
  · exact forall_turn (p := fun _ phase => ∀ d', phase = .writing d' →
      d'.outbox.messageId ∈ w.wire ∨ d'.outbox.messageId ∈ w.queue) rfl
      (fun d' hd => by cases hd) fun j _ => h.writing j
  · rcases hholds j k hj with ⟨hji, heq⟩ | ⟨hne, hj⟩
    · rcases hholds l k hl with ⟨hli, -⟩ | ⟨hne, -⟩
      · rw [hji, hli]
      · exact absurd heq hne
    · rcases hholds l k hl with ⟨-, heq⟩ | ⟨-, hl⟩
      · exact absurd heq hne
      · exact h.holder j l k hj hl
  · rcases hholds j k hj with ⟨-, rfl⟩ | ⟨-, hj⟩
    · exact .inl ⟨d.outbox, hstored.outbox, started_not_pending hstarted hstored.outbox⟩
    · exact hsteady.settled k (h.held j k hj)
  · rcases hlive k hk with hbefore | rfl
    · exact hsteady.started k (hquiet k) (h.started k hbefore)
    · exact hstarted
  · refine forall_turn (p := fun _ phase => ∀ k, phase.unreported = some k → k ∉ w.reported) rfl
      (fun k hk hreported => ?_) fun j _ => h.silent j
    rw [hown k hk] at hreported
    rcases h.reported _ hreported with hwire | hqueue
    · exact hdead (.inl hwire)
    · exact hdead (.inr (.inl hqueue))
  · exact forall_turn (p := fun _ phase => ∀ d' outcome, phase = .written d' outcome →
      Core.unwritten outcome = true → World.Dead _ d'.outbox.messageId) rfl
      (fun d' outcome hd => by cases hd) fun j _ d' outcome hd hu => hkept _ (h.unwritten j d' outcome hd hu)
  · exact forall_turn (p := fun _ phase => ∀ answer k, phase = .answered answer →
      Disclaims k answer → World.Dead _ k) rfl (fun answer k hanswer => by cases hanswer)
      fun j _ answer k hanswer hk => hkept _ (h.answered j answer k hanswer hk)

theorem Copies.claimTask (h : Copies w) (i : Nat) (now : Int) (d : StoredOutboundDelivery P) :
    Copies (claimTask env w i now d) := by
  have heffect : ClaimEffect w.delivery (claimPrepared env.wire env.adapter w.delivery d now).2
      d.outbox.messageId now (claimPrepared env.wire env.adapter w.delivery d now).1 :=
    claimPrepared_effect now
  unfold Core.claimTask
  dsimp only
  generalize claimPrepared env.wire env.adapter w.delivery d now = result at heffect ⊢
  obtain ⟨after, t⟩ := result
  cases heffect with
  | offered hm hnow hclaimed => exact h.offered_claim hclaimed
  | refused hm hclaimed hcancelled =>
    have hsteady := writes_steady (.single (.message hclaimed.write)) id
    refine h.turn hsteady no_unsent rfl fun answer hphase => ?_
    cases hphase
    exact durable_denies (stored_after hclaimed.write)
  | raced hsame =>
    subst hsame
    exact h.turn (.refl _ (fun _ => False) (fun _ => False)) no_unsent rfl
      fun answer hphase => (by cases hphase)
  | failed hsame =>
    subst hsame
    refine h.turn (.refl _ (fun _ => False) (fun _ => False)) no_unsent rfl fun answer hphase => ?_
    cases hphase
    exact error_denies _

omit [DecidableEq P] [DecidableEq F] [F64 F] in
theorem outboundFrame_ok {frame : OutboundFrame P} (h : outboundFrame d = .ok frame) :
    frame.messageId = d.outbox.messageId := by
  simp only [outboundFrame, bind_ok, pure_ok] at h
  obtain ⟨_, -, _, -, rfl⟩ := h
  rfl

/-- a step that leaves the tables and the messages the tasks hold: what is left to show is where the
frames are -/
theorem Copies.moved (h : Copies w) (hdelivery : w'.delivery = w.delivery)
    (hholds : ∀ j, (w'.tasks j).phase.holds = (w.tasks j).phase.holds)
    (hlive : ∀ k, w'.Live k → w.Live k)
    (honce : ∀ k, w'.wire.count k + w'.queue.count k ≤ 1)
    (hoffered : ∀ j k, (w'.tasks j).phase.offers = some k → k ∉ w'.wire ∧ k ∉ w'.queue)
    (hwriting : ∀ j d, (w'.tasks j).phase = .writing d →
      d.outbox.messageId ∈ w'.wire ∨ d.outbox.messageId ∈ w'.queue)
    (hreported : ∀ k ∈ w'.reported, k ∈ w'.wire ∨ k ∈ w'.queue)
    (hsilent : ∀ j k, (w'.tasks j).phase.unreported = some k → k ∉ w'.reported)
    (hunwritten : ∀ j d outcome, (w'.tasks j).phase = .written d outcome →
      Core.unwritten outcome = true →
        (w.tasks j).phase = .written d outcome ∨ w'.Dead d.outbox.messageId)
    (hanswered : ∀ j answer, (w'.tasks j).phase = .answered answer →
      (w.tasks j).phase = .answered answer) : Copies w' where
  once := honce
  offered := hoffered
  writing := hwriting
  holder := fun i j m hi hj => h.holder i j m (hholds i ▸ hi) (hholds j ▸ hj)
  held := fun i m hi => hdelivery ▸ h.held i m (hholds i ▸ hi)
  started := fun m hm => hdelivery ▸ h.started m (hlive m hm)
  reported := hreported
  silent := hsilent
  unwritten := by
    intro j d outcome hd hu
    rcases hunwritten j d outcome hd hu with hbefore | hdead
    · have hold := h.unwritten j d outcome hbefore hu
      exact ⟨fun hnow => hold.1 (hlive _ hnow), hdelivery ▸ hold.2⟩
    · exact hdead
  answered := by
    intro j answer m hanswer hm
    have hdead := h.answered j answer m (hanswered j answer hanswer) hm
    exact ⟨fun hnow => hdead.1 (hlive _ hnow), hdelivery ▸ hdead.2⟩

/-- The exchange of a task with its sink: the task keeps its message `m`, and only frames of `m` may
come or go. -/
theorem Copies.exchange (h : Copies w) {w₁ : World P F R} (hdelivery : w₁.delivery = w.delivery)
    (htasks : w₁.tasks = w.tasks) (hunreported : (w.tasks i).phase.unreported = some m)
    (hholds : phase.holds = some m) (hoffers : phase.offers = none)
    (honce : ∀ k, w₁.wire.count k + w₁.queue.count k ≤ 1)
    (hframes : ∀ k, k ∈ w₁.wire ∨ k ∈ w₁.queue →
      k ∈ w.wire ∨ k ∈ w.queue ∨ (w.tasks i).phase.offers = some k)
    (hkept : ∀ k, k ≠ m → k ∈ w.wire ∨ k ∈ w.queue → k ∈ w₁.wire ∨ k ∈ w₁.queue)
    (hwriting : ∀ d, phase = .writing d → m ∈ w₁.wire ∨ m ∈ w₁.queue)
    (hreported : ∀ k ∈ w₁.reported, k ∈ w₁.wire ∨ k ∈ w₁.queue)
    (hsilent : ∀ k ∈ w₁.reported, k ∈ w.reported ∨ (k = m ∧ phase.unreported = none))
    (hunwritten : ∀ d outcome, phase = .written d outcome → Core.unwritten outcome = true →
      m ∉ w₁.wire ∧ m ∉ w₁.queue) : Copies (w₁.turn i now phase) := by
  have hown : (w.tasks i).phase.holds = some m := TaskPhase.holds_of_unreported hunreported
  have hother : ∀ j k, j ≠ i → (w.tasks j).phase.holds = some k → k ≠ m :=
    fun j k hj hk heq => hj (h.holder j i m (heq ▸ hk) hown)
  have hoffered : ∀ j k, ((w₁.turn i now phase).tasks j).phase.offers = some k →
      j ≠ i ∧ (w.tasks j).phase.offers = some k := by
    refine forall_turn (p := fun j phase => ∀ k, phase.offers = some k →
      j ≠ i ∧ (w.tasks j).phase.offers = some k) htasks (fun k hk => ?_) fun j hji k hk => ⟨hji, hk⟩
    rw [hoffers] at hk
    cases hk
  have hframed : ∀ k, k ∈ w₁.wire ∨ k ∈ w₁.queue → w.Live k := by
    intro k hk
    rcases hframes k hk with hw | hq | ho
    · exact .inl hw
    · exact .inr (.inl hq)
    · exact .inr (.inr ⟨i, ho⟩)
  have hlive : ∀ k, (w₁.turn i now phase).Live k → w.Live k := by
    rintro k (hk | hk | ⟨j, hj⟩)
    · exact hframed k (.inl hk)
    · exact hframed k (.inr hk)
    · exact .inr (.inr ⟨j, (hoffered j k hj).2⟩)
  have hmine : ∀ k, phase.holds = some k → k = m :=
    fun k hk => (Option.some.inj (hholds.symm.trans hk)).symm
  refine h.moved hdelivery ?_ hlive honce (fun j k hj => ?_) ?_ hreported ?_ ?_ ?_
  · exact forall_turn (p := fun j phase => phase.holds = (w.tasks j).phase.holds) htasks
      (hholds.trans hown.symm) fun _ _ => rfl
  · obtain ⟨hji, hoff⟩ := hoffered j k hj
    have hne := hother j k hji (TaskPhase.holds_of_unreported (TaskPhase.unreported_of_offers hoff))
    obtain ⟨hw, hq⟩ := h.offered j k hoff
    have hnone : ¬ (k ∈ w₁.wire ∨ k ∈ w₁.queue) := by
      intro hmem
      rcases hframes k hmem with hmem | hmem | hmine
      · exact hw hmem
      · exact hq hmem
      · have hheld := TaskPhase.holds_of_unreported (TaskPhase.unreported_of_offers hmine)
        rw [hown] at hheld
        exact hne (Option.some.inj hheld).symm
    exact ⟨fun hmem => hnone (.inl hmem), fun hmem => hnone (.inr hmem)⟩
  · refine forall_turn (p := fun _ phase => ∀ d, phase = .writing d →
      d.outbox.messageId ∈ w₁.wire ∨ d.outbox.messageId ∈ w₁.queue) htasks (fun d hd => ?_)
      fun j hji d hd => hkept _ (hother j _ hji (by rw [hd]; rfl)) (h.writing j d hd)
    rw [hmine d.outbox.messageId (by rw [hd]; rfl)]
    exact hwriting d hd
  · refine forall_turn (p := fun _ phase => ∀ k, phase.unreported = some k → k ∉ w₁.reported) htasks
      (fun k hk hmem => ?_) fun j hji k hk hmem => ?_
    · have hkm := hmine k (TaskPhase.holds_of_unreported hk)
      rcases hsilent k hmem with hold | ⟨-, hnone⟩
      · exact h.silent i m hunreported (hkm ▸ hold)
      · rw [hk] at hnone
        cases hnone
    · rcases hsilent k hmem with hold | ⟨heq, -⟩
      · exact h.silent j k hk hold
      · exact hother j k hji (TaskPhase.holds_of_unreported hk) heq
  · refine forall_turn (p := fun j phase => ∀ d outcome, phase = .written d outcome →
      Core.unwritten outcome = true → (w.tasks j).phase = .written d outcome ∨
        World.Dead _ d.outbox.messageId) htasks (fun d outcome hd hu => .inr ?_)
      fun _ _ _ _ hd _ => .inl hd
    obtain ⟨hw, hq⟩ := hunwritten d outcome hd hu
    rw [hmine d.outbox.messageId (by rw [hd]; rfl)]
    refine ⟨?_, ?_⟩
    · rintro (hk | hk | ⟨l, hl⟩)
      · exact hw hk
      · exact hq hk
      · obtain ⟨hli, hoff⟩ := hoffered l m hl
        exact hother l m hli
          (TaskPhase.holds_of_unreported (TaskPhase.unreported_of_offers hoff)) rfl
    · show Settled w₁.delivery m
      rw [hdelivery]
      exact h.held i m hown
  · refine forall_turn (p := fun j phase => ∀ answer, phase = .answered answer →
      (w.tasks j).phase = .answered answer) htasks (fun answer hanswer => ?_) fun _ _ _ h => h
    rw [hanswer] at hholds
    cases hholds

theorem Copies.offerTask (h : Copies w) (now : Int) (hphase : (w.tasks i).phase = .offering d)
    (live : Bool) :
    Copies (offerTask w i now d live) := by
  have hoffers : (w.tasks i).phase.offers = some d.outbox.messageId := by rw [hphase]; rfl
  have hunreported := TaskPhase.unreported_of_offers hoffers
  obtain ⟨hwire, hqueue⟩ := h.offered i _ hoffers
  unfold Core.offerTask
  split
  · rename_i error hframe
    refine h.turn (.refl _ (fun _ => False) (fun _ => False)) no_unsent rfl fun answer hphase => ?_
    cases hphase
    exact error_denies error
  · rename_i frame hframe
    rw [outboundFrame_ok hframe]
    split
    · refine h.exchange rfl rfl hunreported rfl rfl (fun k => ?_) (fun k hk => ?_)
        (fun k _ hk => hk.imp_right (List.mem_cons_of_mem _)) (fun _ _ => .inr List.mem_cons_self)
        (fun k hk => (h.reported k hk).imp_right (List.mem_cons_of_mem _)) (fun _ hk => .inl hk)
        (fun _ _ hwritten => (by cases hwritten))
      · show w.wire.count k + (d.outbox.messageId :: w.queue).count k ≤ 1
        by_cases hk : k = d.outbox.messageId
        · rw [hk, List.count_cons_self, List.count_eq_zero_of_not_mem hwire,
            List.count_eq_zero_of_not_mem hqueue]
        · rw [List.count_cons_of_ne (Ne.symm hk)]
          exact h.once k
      · rcases hk with hk | hk
        · exact .inl hk
        · rcases List.mem_cons.mp hk with rfl | hk
          · exact .inr (.inr hoffers)
          · exact .inr (.inl hk)
    · -- there is no sink, and the frame is dropped
      refine h.exchange rfl rfl hunreported rfl rfl h.once (fun k hk => ?_) (fun _ _ hk => hk)
        (fun _ hwriting => (by cases hwriting)) h.reported (fun _ hk => .inl hk)
        (fun _ _ _ _ => ⟨hwire, hqueue⟩)
      exact hk.imp_right .inl

theorem Copies.hand (h : Copies w) {m : MessageId} (hm : m ∈ w.queue) :
    Copies ({ w with queue := w.queue.erase m, wire := m :: w.wire } : World P F R) := by
  have hpos : 0 < w.queue.count m := List.count_pos_iff.mpr hm
  have hmoved : ∀ k, k ∈ w.wire ∨ k ∈ w.queue → k ∈ m :: w.wire ∨ k ∈ w.queue.erase m := by
    rintro k (hk | hk)
    · exact .inl (List.mem_cons_of_mem _ hk)
    · by_cases hkm : k = m
      · exact .inl (hkm ▸ List.mem_cons_self)
      · exact .inr ((List.mem_erase_of_ne hkm).mpr hk)
  refine h.moved rfl (fun _ => rfl) (fun k hk => ?_) (fun k => ?_) (fun j k hj => ?_)
    (fun j d hj => hmoved _ (h.writing j d hj)) (fun k hk => hmoved _ (h.reported k hk)) h.silent
    (fun _ _ _ hj _ => .inl hj) (fun _ _ hj => hj)
  · rcases hk with hk | hk | hk
    · rcases List.mem_cons.mp hk with rfl | hk
      · exact .inr (.inl hm)
      · exact .inl hk
    · exact .inr (.inl (List.mem_of_mem_erase hk))
    · exact .inr (.inr hk)
  · show (m :: w.wire).count k + (w.queue.erase m).count k ≤ 1
    have hk := h.once k
    by_cases hkm : k = m
    · subst hkm
      rw [List.count_cons_self, List.count_erase_self]
      omega
    · rw [List.count_cons_of_ne (Ne.symm hkm), List.count_erase_of_ne hkm]
      exact hk
  · obtain ⟨hw, hq⟩ := h.offered j k hj
    refine ⟨fun hmem => ?_, fun hmem => hq (List.mem_of_mem_erase hmem)⟩
    rcases List.mem_cons.mp hmem with rfl | hmem
    · exact hq hm
    · exact hw hmem

theorem Copies.reportTask (h : Copies w) (now : Int) (hphase : (w.tasks i).phase = .writing d)
    (outcome : SinkWriteOutcome) :
    Copies (reportTask w i now d outcome) := by
  have hunreported : (w.tasks i).phase.unreported = some d.outbox.messageId := by
    rw [hphase]
    rfl
  unfold Core.reportTask
  split
  · split
    · -- the sink still holds the frame, and drops it
      rename_i hu hm
      have hpos : 0 < w.queue.count d.outbox.messageId := List.count_pos_iff.mpr hm
      have honce := h.once d.outbox.messageId
      have hkeep : ∀ k, k ≠ d.outbox.messageId → k ∈ w.wire ∨ k ∈ w.queue →
          k ∈ w.wire ∨ k ∈ w.queue.erase d.outbox.messageId :=
        fun k hk hmem => hmem.imp_right (List.mem_erase_of_ne hk).mpr
      refine h.exchange rfl rfl hunreported rfl rfl (fun k => ?_) (fun k hk => ?_) hkeep
        (fun _ hwriting => (by cases hwriting)) (fun k hk => ?_) (fun _ hk => .inl hk)
        (fun _ _ _ _ => ⟨fun hw => ?_, fun hq => ?_⟩)
      · show w.wire.count k + (w.queue.erase d.outbox.messageId).count k ≤ 1
        have hk := h.once k
        have hle := (List.erase_sublist (a := d.outbox.messageId) (l := w.queue)).count_le k
        omega
      · exact hk.imp_right fun hq => .inl (List.mem_of_mem_erase hq)
      · exact hkeep k (fun heq => h.silent i _ hunreported (heq ▸ hk)) (h.reported k hk)
      · have hcount : 0 < w.wire.count d.outbox.messageId := List.count_pos_iff.mpr hw
        omega
      · have hcount : 0 < (w.queue.erase d.outbox.messageId).count d.outbox.messageId :=
          List.count_pos_iff.mpr hq
        rw [List.count_erase_self] at hcount
        omega
    · exact h
  · rename_i hu
    refine h.exchange rfl rfl hunreported rfl rfl h.once (fun k hk => hk.imp_right .inl)
      (fun _ _ hk => hk) (fun _ hwriting => (by cases hwriting)) (fun k hk => ?_) (fun k hk => ?_)
      (fun d' outcome' hwritten hu' => ?_)
    · rcases List.mem_cons.mp hk with rfl | hk
      · exact h.writing i d hphase
      · exact h.reported k hk
    · rcases List.mem_cons.mp hk with rfl | hk
      · exact .inr ⟨rfl, rfl⟩
      · exact .inl hk
    · cases hwritten
      exact absurd hu' hu

theorem Copies.completeTask (h : Copies w) (now : Int) {outcome : SinkWriteOutcome}
    (hphase : (w.tasks i).phase = .written d outcome) :
    Copies (completeTask env w i now d outcome) := by
  have heffect : WriteEffect w.delivery
      (completeWrite env.wire env.adapter w.delivery d outcome now).2 d.outbox.messageId now outcome
      (completeWrite env.wire env.adapter w.delivery d outcome now).1 :=
    completeWrite_effect outcome now
  unfold Core.completeTask
  dsimp only
  generalize completeWrite env.wire env.adapter w.delivery d outcome now = result at heffect ⊢
  obtain ⟨after, t⟩ := result
  cases heffect with
  | @told completion d' timeout hm hnow hwrites hstored =>
    -- only a message without a frame is completed as unwritten
    have hunsent : ∀ k, (finishLicence completion (writeResult outcome).1).unsent k → ¬ w.Live k := by
      rintro k ⟨hk, hresult⟩
      have hu : Core.unwritten outcome = true := by
        cases outcome with
        | backpressure | definitelyNotWritten => rfl
        | written | unconfirmed => rcases hresult with hr | hr <;> cases hr
      rw [hk, hm]
      exact (h.unwritten i d outcome hphase hu).1
    refine h.turn (writes_steady hwrites id) hunsent rfl fun answer hphase => ?_
    cases hphase
    exact durable_denies hstored
  | raced hsame =>
    subst hsame
    exact h.turn (.refl _ (fun _ => False) (fun _ => False)) no_unsent rfl
      fun answer hphase => (by cases hphase)
  | failed hsame =>
    subst hsame
    refine h.turn (.refl _ (fun _ => False) (fun _ => False)) no_unsent rfl fun answer hphase => ?_
    cases hphase
    exact error_denies _

theorem Copies.step (h : Copies w) {call : WorldCall P F R} (hchange : WorldChange env w call w') :
    Copies w' := by
  have hsame : Steady w.delivery w.delivery (fun _ => False) (fun _ => False) := .refl _ _ _
  cases hchange with
  | still => exact h
  | claim => exact h.turn hsame no_unsent rfl fun answer hphase => (by cases hphase)
  | hand hm => exact h.hand hm
  | store hforeign => exact h.aside (foreign_steady hforeign) no_unsent
  | core => exact h.aside hsame no_unsent
  | @task i now call claimed _ hclaimed hclock htask =>
    generalize hphase : (w.tasks i).phase = phase at htask
    cases htask with
    | prepare => exact h.prepareTask env i now claimed
    | late | finish => exact h.turn hsame no_unsent rfl fun answer hphase => (by cases hphase)
    | claim => exact h.claimTask env i now _
    | offer => exact h.offerTask now hphase _
    | report => exact h.reportTask now hphase _
    | complete => exact h.completeTask env now hphase
    | reload =>
      refine h.turn hsame no_unsent rfl fun answer hphase => ?_
      cases hphase
      exact reload_denies

omit [DecidableEq P] [DecidableEq F] [F64 F] in
theorem freshWorld_copies (tables : CommandTables P F) (runs : R) (parents : Parents P) :
    Copies (freshWorld tables runs parents) where
  once := fun _ => Nat.zero_le 1
  offered := fun _ _ h => (by cases h)
  writing := fun _ _ h => (by cases h)
  holder := fun _ _ _ h => (by cases h)
  held := fun _ _ h => (by cases h)
  started := by
    rintro m (h | h | ⟨i, h⟩)
    · exact absurd h List.not_mem_nil
    · exact absurd h List.not_mem_nil
    · cases h
  reported := fun _ h => absurd h List.not_mem_nil
  silent := fun _ _ h => (by cases h)
  unwritten := fun _ _ _ h => (by cases h)
  answered := fun _ _ _ h => (by cases h)

end

end Sinan.Core
