import Sinan.Core.Copies

/-!
# Generations of a work item

A work item moves to its next generation only when nothing of the current one was written, so the
messages of its past generations are dead.  A worker that still holds an older claim carries the
message of a past generation, or of the current one, and finds it settled.

With `Copies` this gives the protocol: of all the generations of a command at most one is ever handed
to a transport, and that one once.
-/

set_option linter.unusedSectionVars false

namespace Sinan.Core

open Lib Execution Store Gateway

/-! ## a step of the world -/

section
variable {P F R : Type} [DecidableEq P] [DecidableEq F] [F64 F] {w w' : World P F R} {i : Nat}
  {m : MessageId}

omit [DecidableEq P] [DecidableEq F] [F64 F] in
theorem World.live_turn {now : Int} {phase : TaskPhase P} (h : (w.turn i now phase).Live m) :
    w.Live m ∨ phase.offers = some m := by
  rcases h with hwire | hqueue | ⟨j, hj⟩
  · exact .inl (.inl hwire)
  · exact .inl (.inr (.inl hqueue))
  · rw [turn_tasks] at hj
    split at hj
    · exact .inr hj
    · exact .inl (.inr (.inr ⟨j, hj⟩))

variable (env : Setting P F R)

/-- What a step does to messages and work: a frame comes only to a message that is not settled, only
the messages of claims are new, and the processor takes a step that speaks of dead messages only. -/
structure Passage (w w' : World P F R) : Prop where
  live : ∀ m, w'.Live m → w.Live m ∨ ¬ Settled w.delivery m
  settled : ∀ m, Settled w.delivery m → Settled w'.delivery m
  known : ∀ m o', w'.delivery.outboxes.get m = some o' →
    (∃ o, w.delivery.outboxes.get m = some o) ∨ ∃ claimed ∈ w.core.claims, m = claimed.work.messageId
  core : w'.core = w.core ∨ ∃ call, w'.core = Core.processorStep env.payloads env.runStore w.core call ∧
    ∀ config i answer now m, call = .finish config i answer now → Unsent m answer → w.Dead m

theorem Passage.dead (h : Passage env w w') (hm : w.Dead m) : w'.Dead m := by
  refine ⟨fun hlive => ?_, h.settled m hm.2⟩
  rcases h.live m hlive with hbefore | hnot
  · exact hm.1 hbefore
  · exact hnot hm.2

theorem passage_steady {unsent created : MessageId → Prop} (hcore : w'.core = w.core)
    (hlive : ∀ m, w'.Live m → w.Live m ∨ ¬ Settled w.delivery m)
    (hsteady : Steady w.delivery w'.delivery unsent created)
    (hcreated : ∀ m, created m → ∃ claimed ∈ w.core.claims, m = claimed.work.messageId) :
    Passage env w w' where
  live := hlive
  settled := hsteady.settled
  known := fun m o' hget => (hsteady.known m o' hget).imp_right (hcreated m)
  core := .inl hcore

theorem passage_turn {t : DeliveryTables P} {unsent created : MessageId → Prop} {now : Int}
    {phase : TaskPhase P} (hsteady : Steady w.delivery t unsent created)
    (hcreated : ∀ m, created m → ∃ claimed ∈ w.core.claims, m = claimed.work.messageId)
    (hoffers : phase.offers = none) :
    Passage env w (({ w with delivery := t } : World P F R).turn i now phase) := by
  refine passage_steady env rfl (fun m hm => ?_) hsteady hcreated
  rcases World.live_turn hm with hbefore | hmine
  · exact .inl hbefore
  · rw [hoffers] at hmine
    cases hmine

theorem passage_core (call : ProcessorCall P F R)
    (hcore : w'.core = Core.processorStep env.payloads env.runStore w.core call)
    (hanswer : ∀ config i answer now m, call = .finish config i answer now → Unsent m answer →
      w.Dead m) (hdelivery : w'.delivery = w.delivery) (hlive : ∀ m, w'.Live m → w.Live m) :
    Passage env w w' where
  live := fun m hm => .inl (hlive m hm)
  settled := fun _ hm => hdelivery ▸ hm
  known := fun _ o' hget => .inl ⟨o', hdelivery ▸ hget⟩
  core := .inr ⟨call, hcore, hanswer⟩

omit [DecidableEq P] [DecidableEq F] [F64 F] in
theorem no_created {w : World P F R} : ∀ m : MessageId, False →
    ∃ claimed ∈ w.core.claims, m = claimed.work.messageId :=
  fun _ hm => hm.elim

theorem prepareTask_passage (now : Int) {claimed : ClaimedOutboundDelivery F}
    (hclaimed : claimed ∈ w.core.claims) : Passage env w (prepareTask env w i now claimed) := by
  unfold prepareTask
  split
  · rename_i prepared t hprepared
    obtain ⟨validation, hpreparation, -⟩ := prepareClaimed_ok env hprepared
    refine passage_turn env hpreparation.steady (fun m hm => ⟨claimed, hclaimed, hm⟩) ?_
    cases prepared <;> rfl
  · exact passage_turn env (.refl w.delivery (fun _ => False) (fun _ => False)) no_created rfl

theorem claimTask_passage (now : Int) (d : StoredOutboundDelivery P) :
    Passage env w (claimTask env w i now d) := by
  have heffect : ClaimEffect w.delivery (claimPrepared env.wire env.adapter w.delivery d now).2
      d.outbox.messageId now (claimPrepared env.wire env.adapter w.delivery d now).1 :=
    claimPrepared_effect now
  unfold claimTask
  dsimp only
  generalize claimPrepared env.wire env.adapter w.delivery d now = result at heffect ⊢
  obtain ⟨after, t⟩ := result
  have hsame : Steady w.delivery w.delivery (fun _ => False) (fun _ => False) := .refl _ _ _
  cases heffect with
  | @offered claim o x d' hm hnow hclaimed =>
    -- the message was pending, so it was not settled
    have hmessage := (stored_after hclaimed.write).messageId
    refine passage_steady env rfl (fun k hk => ?_)
      (writes_steady (.single (.message hclaimed.write)) id) no_created
    rcases World.live_turn hk with hbefore | hmine
    · exact .inl hbefore
    · refine .inr fun hsettled => ?_
      have hk' : k = claim.messageId := (Option.some.inj hmine).symm.trans hmessage
      rw [hk'] at hsettled
      exact settled_not_pending hsettled hclaimed.write.outbox hclaimed.pending.1
  | refused hm hclaimed hcancelled =>
    exact passage_turn env (writes_steady (.single (.message hclaimed.write)) id) no_created rfl
  | raced hraced =>
    subst hraced
    exact passage_turn env hsame no_created rfl
  | failed hfailed =>
    subst hfailed
    exact passage_turn env hsame no_created rfl

theorem offerTask_passage (now : Int) {d : StoredOutboundDelivery P}
    (hphase : (w.tasks i).phase = .offering d) (live : Bool) :
    Passage env w (offerTask w i now d live) := by
  have hsame : Steady w.delivery w.delivery (fun _ => False) (fun _ => False) := .refl _ _ _
  unfold offerTask
  split
  · exact passage_turn env hsame no_created rfl
  · rename_i frame hframe
    split
    · refine passage_steady env rfl (fun m hm => .inl ?_) hsame no_created
      rcases World.live_turn hm with hlive | hmine
      · rcases hlive with hwire | hqueue | htask
        · exact .inl hwire
        · rcases List.mem_cons.mp hqueue with rfl | hqueue
          · rw [outboundFrame_ok hframe]
            exact .inr (.inr ⟨i, by rw [hphase]; rfl⟩)
          · exact .inr (.inl hqueue)
        · exact .inr (.inr htask)
      · cases hmine
    · exact passage_turn env hsame no_created rfl

theorem reportTask_passage (now : Int) (d : StoredOutboundDelivery P) (outcome : SinkWriteOutcome) :
    Passage env w (reportTask w i now d outcome) := by
  have hsame : Steady w.delivery w.delivery (fun _ => False) (fun _ => False) := .refl _ _ _
  unfold reportTask
  split
  · split
    · refine passage_steady env rfl (fun m hm => .inl ?_) hsame no_created
      rcases World.live_turn hm with hlive | hmine
      · exact hlive.imp_right (Or.imp_left List.mem_of_mem_erase)
      · cases hmine
    · exact passage_steady env rfl (fun m hm => .inl hm) hsame no_created
  · refine passage_steady env rfl (fun m hm => .inl ?_) hsame no_created
    rcases World.live_turn hm with hlive | hmine
    · exact hlive
    · cases hmine

theorem completeTask_passage (now : Int) (d : StoredOutboundDelivery P) (outcome : SinkWriteOutcome) :
    Passage env w (completeTask env w i now d outcome) := by
  have heffect : WriteEffect w.delivery
      (completeWrite env.wire env.adapter w.delivery d outcome now).2 d.outbox.messageId now outcome
      (completeWrite env.wire env.adapter w.delivery d outcome now).1 :=
    completeWrite_effect outcome now
  unfold completeTask
  dsimp only
  generalize completeWrite env.wire env.adapter w.delivery d outcome now = result at heffect ⊢
  obtain ⟨after, t⟩ := result
  have hsame : Steady w.delivery w.delivery (fun _ => False) (fun _ => False) := .refl _ _ _
  cases heffect with
  | told hm hnow hwrites hstored => exact passage_turn env (writes_steady hwrites id) no_created rfl
  | raced hraced =>
    subst hraced
    exact passage_turn env hsame no_created rfl
  | failed hfailed =>
    subst hfailed
    exact passage_turn env hsame no_created rfl

theorem finishTask_passage (now : Int) (config : DurableOutboundConfig)
    {answer : Delivery DeliveryOutcome} (hanswer : ∀ m, Unsent m answer → w.Dead m) :
    Passage env w (finishTask env w i now config answer) := by
  refine passage_core env (.finish config i answer now) rfl
    (fun config' i' answer' now' m hcall hm => ?_) rfl fun m hm => ?_
  · cases hcall
    exact hanswer m hm
  · rcases World.live_turn hm with hlive | hmine
    · exact hlive
    · cases hmine

theorem Copies.passage (h : Copies w) {call : WorldCall P F R}
    (hchange : WorldChange env w call w') : Passage env w w' := by
  have hsame : Steady w.delivery w.delivery (fun _ => False) (fun _ => False) := .refl _ _ _
  cases hchange with
  | still => exact passage_steady env rfl (fun m hm => .inl hm) hsame no_created
  | @claim config now =>
    refine passage_core env (.claim config now) rfl (fun _ _ _ _ _ hcall => (nomatch hcall)) rfl
      fun m hm => ?_
    rcases World.live_turn hm with hlive | hmine
    · exact hlive
    · cases hmine
  | hand hm =>
    refine passage_steady env rfl (fun k hk => .inl ?_) hsame no_created
    rcases hk with hwire | hqueue | htask
    · rcases List.mem_cons.mp hwire with rfl | hwire
      · exact .inr (.inl hm)
      · exact .inl hwire
    · exact .inr (.inl (List.mem_of_mem_erase hqueue))
    · exact .inr (.inr htask)
  | store hforeign =>
    exact passage_steady env rfl (fun m hm => .inl hm) (foreign_steady hforeign) no_created
  | @core call hbusiness =>
    refine passage_core env call rfl (fun _ _ _ _ _ hcall _ => ?_) rfl fun m hm => hm
    rw [hcall] at hbusiness
    cases hbusiness
  | @task i now call claimed _ hclaimed hclock htask =>
    generalize hphase : (w.tasks i).phase = phase at htask
    cases htask with
    | prepare => exact prepareTask_passage env now (List.mem_of_getElem? hclaimed)
    | late => exact finishTask_passage env now _ fun m hm => hm.elim
    | finish =>
      exact finishTask_passage env now _ fun m hm =>
        h.answered i _ m hphase (disclaims_of_unsent hm)
    | claim => exact claimTask_passage env now _
    | offer => exact offerTask_passage env now hphase _
    | report => exact reportTask_passage env now _ _
    | complete => exact completeTask_passage env now _ _
    | reload => exact passage_turn env hsame no_created rfl

/-! ## the invariant -/

/-- the processor, the frames and the generations, in every state -/
structure World.Sound (w : World P F R) : Prop where
  tracked : Tracked w.core
  copies : Copies w
  generations : w.core.Generational w.Dead fun m => ∃ o, w.delivery.outboxes.get m = some o

theorem World.Sound.step (h : w.Sound) (call : WorldCall P F R) : (worldStep env w call).Sound := by
  have hchange := worldStep_change env w call
  have hpassage := h.copies.passage env hchange
  refine ⟨?_, h.copies.step env hchange, ?_⟩
  · rcases hpassage.core with hsame | ⟨processorCall, hstep, -⟩
    · rw [hsame]
      exact h.tracked
    · rw [hstep]
      exact h.tracked.step env.payloads env.runStore processorCall
  · -- first the messages move, then the work
    have hknown : ∀ m, (∃ o, (worldStep env w call).delivery.outboxes.get m = some o) →
        (∃ o, w.delivery.outboxes.get m = some o) ∨
          ∃ claimed ∈ w.core.claims, m = claimed.work.messageId :=
      fun m ⟨o', hget⟩ => hpassage.known m o' hget
    have hmessages := Generations.messages h.generations (fun m hm => hpassage.dead env hm) hknown
    rcases hpassage.core with hsame | ⟨processorCall, hstep, hanswer⟩
    · rw [hsame]
      exact hmessages
    · rw [hstep]
      exact Generations.processorStep env.payloads env.runStore h.tracked hmessages
        fun config i answer now m hcall hm => hpassage.dead env (hanswer config i answer now m hcall hm)

theorem freshWorld_sound (tables : CommandTables P F) (runs : R) (parents : Parents P) :
    (freshWorld tables runs parents).Sound where
  tracked := freshProcessor_tracked tables runs
  copies := freshWorld_copies tables runs parents
  generations := ⟨fun _ _ h => (nomatch h), fun _ _ _ h => (nomatch h),
    fun _ h => absurd h List.not_mem_nil, fun _ ⟨_, h⟩ => (nomatch h)⟩

theorem World.Sound.current (h : w.Sound) (hm : w.Live m) :
    ∃ id row, w.core.tables.works.get id = some row ∧ m = messageId row.subject row.generation := by
  obtain ⟨o, x, hget, -⟩ := h.copies.started m hm
  obtain ⟨id, row, g, hrow, hpos, hg, rfl⟩ := Generations.known h.generations m ⟨o, hget⟩
  refine ⟨id, row, hrow, ?_⟩
  rcases Nat.lt_or_eq_of_le hg with hpast | hcurrent
  · exact absurd hm (Generations.past h.generations id row g hrow hpos hpast).1
  · rw [hcurrent]

theorem World.Sound.generation (h : w.Sound) {subject : OutboundDeliveryWorkSubject} {g g' : Nat}
    (hg : w.Live (messageId subject g)) (hg' : w.Live (messageId subject g')) : g = g' := by
  obtain ⟨id, row, hrow, hmessage⟩ := h.current hg
  obtain ⟨id', row', hrow', hmessage'⟩ := h.current hg'
  obtain ⟨hsubject, hgeneration⟩ := messageId_inj hmessage
  obtain ⟨hsubject', hgeneration'⟩ := messageId_inj hmessage'
  -- both rows are that of the subject
  have hid := (h.tracked.named id row hrow).1
  have hid' := (h.tracked.named id' row' hrow').1
  rw [← hsubject] at hid
  rw [← hsubject'] at hid'
  rw [hid] at hrow
  rw [hid', hrow] at hrow'
  cases hrow'
  rw [hgeneration, hgeneration']

/-! ## runs -/

variable (tables : CommandTables P F) (runs : R) (parents : Parents P)
  (calls : List (WorldCall P F R))

theorem worldAt_sound (k : Nat) : (worldAt env tables runs parents calls k).Sound :=
  before_invariant _ _ calls (freshWorld_sound tables runs parents) (fun _ call h => h.step env call) k

/-- **At most one copy on the wire**, in front of every call of every run: of each execution command
the frames of one generation at most were handed to a transport, and those of each message once. -/
theorem one_copy_on_the_wire (k : Nat) (command : CommandId) :
    (∀ m, (worldAt env tables runs parents calls k).wire.count m ≤ 1) ∧
    ∀ g g', messageId (.executionCommand command) g ∈ (worldAt env tables runs parents calls k).wire →
      messageId (.executionCommand command) g' ∈ (worldAt env tables runs parents calls k).wire →
      g = g' := by
  have h := worldAt_sound env tables runs parents calls k
  refine ⟨fun m => ?_, fun g g' hg hg' => h.generation (.inl hg) (.inl hg')⟩
  have honce := h.copies.once m
  omega

end

/-! ## one command from its claim to the wire

The command to cancel an order, on a session of its account. -/

def goldMessage : MessageId := "msg:execution.command:cmd:v1"

def goldDraft : WireMessage (ExecutionCommand ℚ) where
  messageId := goldMessage
  messageType := .executionCommand
  schemaVersion := supportedSchemaVersion
  clientId := none
  sessionId := none
  correlationId := none
  causationId := none
  sentAt := none
  sequence := none
  payload := cancelCommand

/-- the draft as it is bound to the session at 21 -/
def goldBound : WireMessage (ExecutionCommand ℚ) :=
  { goldDraft with
    clientId := some "ea", sessionId := some "s1", sequence := some 2, sentAt := some 21 }

/-- the one message of the run and its JSON -/
def goldSetting : Setting String ℚ Unit where
  payloads := goldCodec
  runStore := noRuns
  wire :=
    { decode := fun text =>
        if text = "envelope" then
          .ok ⟨goldMessage, "execution.command", some "s1", some 2, "command"⟩
        else .error "unknown envelope"
      commandId := fun text => if text = "command" then .ok "cmd" else .error "unknown payload"
      requestId := fun _ => .error "unknown payload" }
  adapter := ⟨⟨5000, by decide, by decide⟩, 60000, "driver"⟩
  commandCodec :=
    { rejected := fun _ => .ok "request"
      envelope := fun message =>
        if message = goldBound then .ok "envelope" else .error "unknown message"
      stored := fun text => if text = "envelope" then .ok goldBound else .error "unknown envelope" }
  requestCodec :=
    ⟨fun _ => .error "no request", fun _ => .error "no request", fun _ => .error "no request"⟩

def cancelParents : Parents String where
  command := fun id => if id = "cmd" then some ⟨"account", none, none, 1000, "command"⟩ else none
  run := fun _ => none

/-- claimed, prepared, offered and handed to the transport, and reported as written -/
def writtenCalls : List (WorldCall String ℚ Unit) :=
  [.core (.command ⟨⟨cancelCommand, 10⟩, "risk"⟩ cancelState),
    .store (.replaceActiveSession { goldSession with accountId := "account" }),
    .claim workerConfig 20,
    .task 0 21 .prepare,
    .task 0 22 .claimOutbox,
    .task 0 23 (.offer true),
    .hand goldMessage,
    .task 0 24 (.report .written)]

theorem one_copy_on_the_wire_sample :
    goldMessage ∈ (worldAt goldSetting emptyCommands () cancelParents writtenCalls 8).wire ∧
      (worldAt goldSetting emptyCommands () cancelParents writtenCalls 8).wire.count goldMessage ≤ 1 :=
  ⟨by decide +kernel,
    (one_copy_on_the_wire goldSetting emptyCommands () cancelParents writtenCalls 8 "cmd").1
      goldMessage⟩

end Sinan.Core
