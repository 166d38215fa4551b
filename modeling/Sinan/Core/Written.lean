import Sinan.Core.Evidence
import Sinan.Gateway.Dates

/-!
# Written commands

Every claim remembers the creation of its work and the command it was loaded with, and both last; every
row of the outbox was enqueued for a claim, after the creation of its work and before the expiry of its
command.  So each task speaks of the message of its claim, and what it is answered are dates of the row.

Together with `Copies` and `Generations`: once a sink has reported a message as written, or as possibly
written, a worker that finishes the work of its command takes the command out of CREATED, unless the
answer it has is excused.
-/

set_option linter.unusedSectionVars false

namespace Sinan.Core

open Lib Execution Store Gateway

section
variable {P F R : Type} [DecidableEq P] [DecidableEq F] [F64 F]

/-! ## what lasts in the tables of the processor -/

structure Kept (t t' : OutboundTables P F R) : Prop where
  rows : ∀ id row, t.works.get id = some row → ∃ row', t'.works.get id = some row' ∧
    row'.subject = row.subject ∧ row'.createdAt = row.createdAt
  commands : ∀ c command, t.commands.get c = some command → t'.commands.get c = some command

theorem Kept.refl (t : OutboundTables P F R) : Kept t t :=
  ⟨fun _ row hrow => ⟨row, hrow, rfl, rfl⟩, fun _ _ h => h⟩

variable {t' : OutboundTables P F R} {work current : StoredOutboundDeliveryWork}

theorem kept_works {t : OutboundTables P F R} (hworks : t'.works = t.works)
    (hcommands : ∀ c command, t.commands.get c = some command → t'.commands.get c = some command) :
    Kept t t' :=
  ⟨fun _ row hrow => ⟨row, by rw [hworks]; exact hrow, rfl, rfl⟩, hcommands⟩

theorem kept_row {t : OutboundTables P F R} (hafter : WorksAfter t.works t'.works work)
    (hcommands : t'.commands = t.commands)
    (hrow : ∀ row, t.works.get work.workId = some row →
      work.subject = row.subject ∧ work.createdAt = row.createdAt) : Kept t t' where
  rows := by
    intro id row hget
    rw [hafter]
    split
    · rename_i hid
      obtain ⟨hsubject, hcreated⟩ := hrow row (hid ▸ hget)
      exact ⟨work, rfl, hsubject, hcreated⟩
    · exact ⟨row, hget, rfl, rfl⟩
  commands := by
    intro c command hget
    rw [hcommands]
    exact hget

theorem Leased.kept {t : OutboundTables P F R} {claim : ClaimOutboundDeliveryWork}
    (h : Leased t.works t'.works claim current work) (hcommands : t'.commands = t.commands) :
    Kept t t' := by
  refine kept_row h.after hcommands fun row hrow => ?_
  rcases h.source with hget | ⟨hnone, -⟩
  · rw [hrow] at hget
    cases hget
    rw [h.row]
    exact ⟨rfl, rfl⟩
  · rw [hrow] at hnone
    cases hnone

theorem Finished.kept {t : OutboundTables P F R} {finish : WorkFinish}
    (h : Finished t.works t'.works finish current work) (hcommands : t'.commands = t.commands) :
    Kept t t' := by
  refine kept_row h.after hcommands fun row hrow => ?_
  have hsource := h.source
  rw [← h.workId, hrow] at hsource
  cases hsource
  exact ⟨h.subject, h.createdAt⟩

/-! ## a step of the processor -/

/-- what a claim read of its command -/
def ClaimedOutboundDelivery.KnownIn (t : OutboundTables P F R) :
    ClaimedOutboundDelivery F → Prop
  | .executionCommand _ command _ _ _ => t.commands.get command.command.commandId = some command
  | .reconciliationRequest _ _ => True

omit [DecidableEq P] [DecidableEq F] [F64 F] in
theorem loadClaimed_known {runStore : RunStore R} {t : OutboundTables P F R}
    {claimed : ClaimedOutboundDelivery F} (h : loadClaimed runStore t work = .ok claimed) :
    claimed.KnownIn t := by
  unfold loadClaimed at h
  split at h
  · simp only [bind_ok, need_ok, pure_ok] at h
    obtain ⟨command, hcommand, state, -, context, -, rfl⟩ := h
    have hkey := Table.key_of_get hcommand
    show t.commands.get command.command.commandId = some command
    rw [show command.command.commandId = _ from hkey]
    exact hcommand
  · simp only [bind_ok, need_ok, pure_ok] at h
    obtain ⟨found, -, run, -, rfl⟩ := h
    trivial

/-- a claim that was just made at `now` -/
structure FreshClaim (t : OutboundTables P F R) (now : Int) (held : ClaimedOutboundDelivery F) :
    Prop where
  row : ∃ row, t.works.get held.work.workId = some row ∧ row.createdAt = held.work.createdAt
  known : held.KnownIn t
  dated : held.work.createdAt ≤ now

/-- the call that makes claims, and its time -/
def ProcessorCall.claimsAt : ProcessorCall P F R → Option Int
  | .claim _ now => some now
  | _ => none

variable (codec : PayloadCodec P F) (runStore : RunStore R)

/-- A call keeps what lasts; one that claims at `now` adds at most one claim. -/
structure Continues (s s' : Processor P F R) (claimsAt : Option Int) : Prop where
  kept : Kept s.tables s'.tables
  claims : s'.claims = s.claims ∨ ∃ now held, claimsAt = some now ∧
    s'.claims = s.claims ++ [held] ∧ FreshClaim s'.tables now held

variable {now : Int}

omit [DecidableEq P] [DecidableEq F] [F64 F] in
theorem ClaimedWork.fresh {t : OutboundTables P F R} {held : ClaimedOutboundDelivery F}
    (h : ClaimedWork runStore t t' now held) (hcommands : t'.commands = t.commands) :
    FreshClaim t' now held := by
  obtain ⟨⟨claim, current, rfl, hleased⟩, hload⟩ := h
  have hget : t'.works.get held.work.workId = some held.work := by
    rw [hleased.after, if_pos rfl]
  refine ⟨⟨held.work, hget, rfl⟩, ?_, hleased.dated⟩
  have hknown := loadClaimed_known hload
  unfold ClaimedOutboundDelivery.KnownIn at hknown ⊢
  rw [hcommands]
  exact hknown

theorem insertCommand_commands {t : OutboundTables P F R} {row : CommandRow F}
    {state : ExecutionCommandState} (h : insertCommand t row state = .ok t') (c : CommandId)
    (command : CommandRow F) (hget : t.commands.get c = some command) :
    t'.commands.get c = some command := by
  unfold insertCommand at h
  split at h
  · cases h
  · simp only [bind_ok, need_ok, pure_ok] at h
    obtain ⟨commands, hcommands, states, -, rfl⟩ := h
    exact Table.get_insert_of_some hcommands hget

theorem applyEvidence_commands {t : OutboundTables P F R} {c : CommandId}
    {evidence : CommandEvidence F} (h : applyEvidence t c evidence = .ok t') :
    t'.commands = t.commands := by
  simp only [applyEvidence, requiredState, bind_ok, need_ok] at h
  obtain ⟨row, -, current, -, next, -, h⟩ := h
  split at h
  · cases h
    rfl
  · exact (writeState_ok h).2.2

theorem processorStep_continues {s : Processor P F R} (h : Tracked s)
    (call : ProcessorCall P F R) :
    Continues s (processorStep codec runStore s call) call.claimsAt := by
  cases call with
  | claim config now =>
    simp only [processorStep]
    split
    · rename_i claimed t hclaim
      obtain ⟨hsame, ⟨rfl, rfl⟩ | ⟨held, rfl, hheld⟩⟩ := claimDelivery_ok hclaim
      · exact ⟨.refl _, .inl (List.append_nil _)⟩
      · have hcommands : t.commands = s.tables.commands := by rw [hsame]
        obtain ⟨claim, current, -, hleased⟩ := hheld.leased
        exact ⟨Leased.kept hleased hcommands, .inr ⟨now, held, rfl, rfl, hheld.fresh runStore hcommands⟩⟩
    · exact ⟨.refl _, .inl rfl⟩
  | finish config claim answer now =>
    simp only [processorStep]
    cases hfinish : finishClaim codec runStore config s claim answer now with
    | error e => exact ⟨.refl _, .inl rfl⟩
    | ok t' =>
      obtain ⟨claimed, -, -, hending, hcommands⟩ := finishClaim_ok codec runStore h hfinish
      obtain ⟨finish, current, row, hfinished, -⟩ := hending.finished
      exact ⟨Finished.kept hfinished hcommands, .inl rfl⟩
  | command row state =>
    simp only [processorStep]
    cases hinsert : insertCommand s.tables row state with
    | error e => exact ⟨.refl _, .inl rfl⟩
    | ok t' =>
      exact ⟨kept_works (insertCommand_ok hinsert).1 (insertCommand_commands hinsert), .inl rfl⟩
  | evidence c evidence =>
    simp only [processorStep]
    cases hevidence : applyEvidence s.tables c evidence with
    | error e => exact ⟨.refl _, .inl rfl⟩
    | ok t' =>
      refine ⟨kept_works (applyEvidence_ok hevidence).1 fun c' command hget => ?_, .inl rfl⟩
      show t'.commands.get c' = some command
      rw [applyEvidence_commands hevidence]
      exact hget
  | others plans events runs => exact ⟨kept_works rfl fun _ _ hget => hget, .inl rfl⟩

/-! ## dates -/

/-- the row was enqueued for a work item: not before its creation, and before its command expired -/
structure RowDated (t : OutboundTables P F R) (m : MessageId) (o : StoredWireOutbox P) : Prop where
  ordered : Ordered o
  work : ∃ id row g, t.works.get id = some row ∧ m = messageId row.subject g ∧
    row.createdAt ≤ o.createdAt ∧ ∀ c, row.subject = .executionCommand c →
      ∃ command, t.commands.get c = some command ∧ o.createdAt < command.command.expiresAt

omit [DecidableEq P] [DecidableEq F] [F64 F] in
theorem RowDated.later {t : OutboundTables P F R} {m : MessageId} {o o' : StoredWireOutbox P}
    (h : RowDated t m o) (hkept : Kept t t') (hlater : Later o o') : RowDated t' m o' where
  ordered := hlater.ordered h.ordered
  work := by
    obtain ⟨id, row, g, hrow, hm, hcreated, hexpires⟩ := h.work
    obtain ⟨row', hrow', hsubject, hcreated'⟩ := hkept.rows id row hrow
    refine ⟨id, row', g, hrow', by rw [hsubject]; exact hm, ?_, fun c hc => ?_⟩
    · rw [hcreated', hlater.createdAt]
      exact hcreated
    · obtain ⟨command, hcommand, htime⟩ := hexpires c (hsubject ▸ hc)
      exact ⟨command, hkept.commands c command hcommand, by rw [hlater.createdAt]; exact htime⟩

/-- the message a task is about -/
def TaskPhase.about : TaskPhase P → Option MessageId
  | .prepared d | .offering d | .writing d | .written d _ => some d.outbox.messageId
  | .reloading m _ => some m
  | _ => none

/-- the task is about the message of its claim, and so is the answer -/
structure Faithful (claimed : ClaimedOutboundDelivery F) (phase : TaskPhase P) : Prop where
  about : ∀ m, phase.about = some m → m = claimed.work.messageId
  answer : ∀ answer, phase = .answered answer → Reports claimed.work claimed.expiresAt answer

/-- what a claim remembers of its work and its command, and the task that carries it out -/
structure ClaimDated (w : World P F R) (i : Nat) (claimed : ClaimedOutboundDelivery F) : Prop where
  row : ∃ row, w.core.tables.works.get claimed.work.workId = some row ∧
    row.createdAt = claimed.work.createdAt
  known : claimed.KnownIn w.core.tables
  clock : claimed.work.createdAt ≤ (w.tasks i).clock
  faithful : Faithful claimed (w.tasks i).phase

structure Dated (w : World P F R) : Prop where
  rows : ∀ m o, w.delivery.outboxes.get m = some o → RowDated w.core.tables m o
  claims : ∀ i claimed, w.core.claims[i]? = some claimed → ClaimDated w i claimed

/-- the row of the message of a claim, as its dates are checked -/
def DatedFor (t : DeliveryTables P) (claimed : ClaimedOutboundDelivery F) : Prop :=
  ∀ o, t.outboxes.get claimed.work.messageId = some o → Ordered o ∧
    claimed.work.createdAt ≤ o.createdAt ∧ ∀ time, claimed.expiresAt = some time → o.createdAt < time

omit [DecidableEq P] [DecidableEq F] [F64 F] in
theorem subject_of_fits {claimed : ClaimedOutboundDelivery F} (hfits : claimed.Fits) {time : Int}
    (htime : claimed.expiresAt = some time) :
    ∃ command, claimed.work.subject = .executionCommand command.command.commandId ∧
      time = command.command.expiresAt ∧
      ∀ {t : OutboundTables P F R}, claimed.KnownIn t →
        t.commands.get command.command.commandId = some command := by
  cases claimed with
  | executionCommand work command state correlationId causationId =>
    cases htime
    exact ⟨command, hfits, rfl, fun h => h⟩
  | reconciliationRequest work run => cases htime

variable {w w' : World P F R} {i : Nat} {t : DeliveryTables P} {d : StoredOutboundDelivery P}
  {observedAt : Int}

theorem Dated.claimed (h : Dated w) (hsound : w.Sound) {claimed : ClaimedOutboundDelivery F}
    (hclaimed : w.core.claims[i]? = some claimed) :
    DatedFor w.delivery claimed := by
  intro o hget
  have hmem := List.mem_of_getElem? hclaimed
  have hbehind := Generations.claims hsound.generations claimed hmem
  have htracked := hsound.tracked.claims claimed hmem
  obtain ⟨hrow, hknown, -, -⟩ := h.claims i claimed hclaimed
  obtain ⟨own, hown, howned⟩ := hrow
  obtain ⟨hordered, id, row, g, hwork, hm, hcreated, hexpires⟩ := h.rows _ o hget
  rw [hbehind.message] at hm
  obtain ⟨hsubject, -⟩ := messageId_inj hm
  -- both are the row of the subject of the claim
  have hid := (hsound.tracked.named id row hwork).1
  rw [← hsubject, ← htracked.named] at hid
  rw [hid, hown] at hwork
  cases hwork
  refine ⟨hordered, howned ▸ hcreated, fun time htime => ?_⟩
  obtain ⟨command, hc, rfl, hcommand⟩ := subject_of_fits htracked.fits htime
  obtain ⟨command', hcommand', hbefore⟩ := hexpires _ (hsubject.symm.trans hc)
  rw [hcommand hknown] at hcommand'
  cases hcommand'
  exact hbefore

theorem DatedFor.aged {t' : DeliveryTables P} {claimed : ClaimedOutboundDelivery F}
    (h : DatedFor t claimed) (haged : Aged t t' noFresh) : DatedFor t' claimed := by
  intro o' hget
  obtain ⟨o, hold, hlater⟩ := (haged _ o' hget).resolve_right id
  obtain ⟨hordered, hcreated, hexpires⟩ := h o hold
  rw [hlater.createdAt]
  exact ⟨hlater.ordered hordered, hcreated, hexpires⟩

theorem tells_reports {claimed : ClaimedOutboundDelivery F} {outcome : DeliveryOutcome}
    (hdated : DatedFor t claimed) (hstored : Stored t claimed.work.messageId d)
    (h : Tells d observedAt outcome) : Reports claimed.work claimed.expiresAt (.ok outcome) := by
  obtain ⟨hordered, hcreated, hexpires⟩ := hdated d.outbox hstored.outbox
  have hm := h.message.trans hstored.messageId
  cases h with
  | @sent receipt _ _ hsent =>
    refine .sent hm ?_
    rw [hsent]
    cases hat : d.outbox.sentAt with
    | none => exact le_trans hcreated hordered.updated
    | some time => exact le_trans hcreated (hordered.sent time hat)
  | unconfirmed => exact .unconfirmed hm hcreated hexpires
  | refused => exact .rejected hm
  | unwritten _ hevidence =>
    cases outcome with
    | sent | unconfirmed => cases hevidence
    | rejected => exact .rejected hm
    | definitelyNotWritten => exact .definitelyNotWritten hm

theorem durable_reports {claimed : ClaimedOutboundDelivery F} {timeout : Nat}
    (hdated : DatedFor t claimed) (hstored : Stored t claimed.work.messageId d) :
    Reports claimed.work claimed.expiresAt (durableDeliveryOutcome d observedAt timeout) := by
  cases houtcome : durableDeliveryOutcome d observedAt timeout with
  | error e => exact .failed
  | ok outcome => exact tells_reports hdated hstored (durable_tells houtcome)

theorem reload_reports {claimed : ClaimedOutboundDelivery F} {wire : WireCodec P}
    {a : GatewayOutboundAdapter} (hdated : DatedFor t claimed) :
    Reports claimed.work claimed.expiresAt
      (reloadExisting wire a t claimed.work.messageId observedAt) := by
  cases hreload : reloadExisting wire a t claimed.work.messageId observedAt with
  | error e => exact .failed
  | ok outcome =>
    simp only [reloadExisting, bind_ok, fromStore_ok, need_ok] at hreload
    obtain ⟨found, hfound, d, rfl, houtcome⟩ := hreload
    exact tells_reports hdated ((fetchOutboundDelivery_ok hfound).1 d rfl) (durable_tells houtcome)

/-! ## a step of the world -/

variable {answer : Delivery DeliveryOutcome} {phase : TaskPhase P}

theorem foreign_aged {wire : WireCodec P} {call : StoreCall P} (h : foreign call = true) :
    Aged t (storeStep wire t call) noFresh := by
  unfold storeStep
  split
  · rename_i t' hcall
    rcases runCall_writes wire hcall with hwrites | ⟨rows, rfl⟩
    · have hcreates : ¬ (callLicence call).creates := by
        cases call <;> first
          | exact id
          | cases h
      exact writes_aged hwrites hcreates
    · exact aged_refl t
  · exact aged_refl t

omit [DecidableEq P] [DecidableEq F] [F64 F] in
theorem faithful_claimed (claimed : ClaimedOutboundDelivery F) :
    Faithful claimed (.claimed : TaskPhase P) :=
  ⟨fun _ h => (nomatch h), fun _ h => (nomatch h)⟩

omit [DecidableEq P] [DecidableEq F] [F64 F] in
theorem faithful_finished (claimed : ClaimedOutboundDelivery F) :
    Faithful claimed (.finished : TaskPhase P) :=
  ⟨fun _ h => (nomatch h), fun _ h => (nomatch h)⟩

omit [DecidableEq P] [DecidableEq F] [F64 F] in
theorem faithful_answered {claimed : ClaimedOutboundDelivery F}
    (h : Reports claimed.work claimed.expiresAt answer) :
    Faithful claimed (.answered answer : TaskPhase P) := by
  refine ⟨fun _ hm => (nomatch hm), fun answer' hanswer => ?_⟩
  cases hanswer
  exact h

omit [DecidableEq P] [DecidableEq F] [F64 F] in
theorem faithful_about {claimed : ClaimedOutboundDelivery F}
    (hm : phase.about = some claimed.work.messageId) : Faithful claimed phase := by
  refine ⟨fun m h => (Option.some.inj (hm.symm.trans h)).symm, fun answer hanswer => ?_⟩
  rw [hanswer] at hm
  cases hm

omit [DecidableEq P] [DecidableEq F] [F64 F] in
/-- What a step must show: the tables go on, the rows get later or are dated, and the tasks of the
claims there were stay faithful. -/
theorem Dated.after (h : Dated w) {claimsAt : Option Int}
    (hcore : Continues w.core w'.core claimsAt)
    (hrows : ∀ m o', w'.delivery.outboxes.get m = some o' →
      (∃ o, w.delivery.outboxes.get m = some o ∧ Later o o') ∨ RowDated w'.core.tables m o')
    (hold : ∀ i claimed, w.core.claims[i]? = some claimed →
      (w.tasks i).clock ≤ (w'.tasks i).clock ∧
        (Faithful claimed (w.tasks i).phase → Faithful claimed (w'.tasks i).phase))
    (hnew : ∀ now, claimsAt = some now → w'.tasks w.core.claims.length = ⟨now, .claimed⟩) :
    Dated w' where
  rows := by
    intro m o' hget
    rcases hrows m o' hget with ⟨o, hbefore, hlater⟩ | hdated
    · exact (h.rows m o hbefore).later hcore.kept hlater
    · exact hdated
  claims := by
    have hbefore : ∀ i claimed, w.core.claims[i]? = some claimed → ClaimDated w' i claimed := by
      intro i claimed hclaimed
      obtain ⟨⟨row, hrow, hcreated⟩, hknown, hclock, hfaithful⟩ := h.claims i claimed hclaimed
      obtain ⟨hclock', hfaithful'⟩ := hold i claimed hclaimed
      obtain ⟨row', hrow', -, hcreated'⟩ := hcore.kept.rows _ row hrow
      refine ⟨⟨row', hrow', hcreated'.trans hcreated⟩, ?_, le_trans hclock hclock',
        hfaithful' hfaithful⟩
      cases claimed with
      | executionCommand work command state correlationId causationId =>
        exact hcore.kept.commands _ _ hknown
      | reconciliationRequest work run => trivial
    intro i claimed hclaimed
    rcases hcore.claims with hsame | ⟨now, held, hcall, happend, hfresh⟩
    · rw [hsame] at hclaimed
      exact hbefore i claimed hclaimed
    · rw [happend] at hclaimed
      by_cases hi : i < w.core.claims.length
      · rw [List.getElem?_append_left hi] at hclaimed
        exact hbefore i claimed hclaimed
      · rw [List.getElem?_append_right (not_lt.mp hi)] at hclaimed
        rw [List.getElem?_singleton] at hclaimed
        split at hclaimed
        case isFalse => cases hclaimed
        rename_i hzero
        cases hclaimed
        have hlength : i = w.core.claims.length := by omega
        have htask := hnew now hcall
        rw [← hlength] at htask
        refine ⟨hfresh.row, hfresh.known, ?_, ?_⟩
        · rw [htask]
          exact hfresh.dated
        · rw [htask]
          exact faithful_claimed _

theorem Continues.refl (s : Processor P F R) : Continues s s none :=
  ⟨.refl _, .inl rfl⟩

variable (env : Setting P F R)

theorem Dated.tables (h : Dated w) {queue wire reported : List MessageId}
    (haged : Aged w.delivery t noFresh) :
    Dated (⟨w.core, t, w.tasks, queue, wire, reported⟩ : World P F R) :=
  h.after (.refl _) (fun m o' hget => (haged m o' hget).imp_right fun hfresh => hfresh.elim)
    (fun _ _ _ => ⟨le_rfl, id⟩) fun _ hnow => (nomatch hnow)

theorem Dated.turn (h : Dated w) {claimed : ClaimedOutboundDelivery F}
    (hclaimed : w.core.claims[i]? = some claimed) (hclock : (w.tasks i).clock ≤ now)
    {core : Processor P F R} (hcore : Continues w.core core none)
    {queue wire reported : List MessageId}
    (hrows : ∀ m o', t.outboxes.get m = some o' →
      (∃ o, w.delivery.outboxes.get m = some o ∧ Later o o') ∨ RowDated core.tables m o')
    (hphase : Faithful claimed phase) :
    Dated ((⟨core, t, w.tasks, queue, wire, reported⟩ : World P F R).turn i now phase) := by
  refine h.after hcore hrows (fun j held hheld => ?_) fun _ hnow => (nomatch hnow)
  rw [turn_tasks]
  by_cases hj : j = i
  · rw [if_pos hj]
    subst hj
    rw [hclaimed] at hheld
    cases hheld
    exact ⟨hclock, fun _ => hphase⟩
  · rw [if_neg hj]
    exact ⟨le_rfl, id⟩

theorem Dated.turn_tables (h : Dated w) {claimed : ClaimedOutboundDelivery F}
    (hclaimed : w.core.claims[i]? = some claimed) (hclock : (w.tasks i).clock ≤ now)
    (haged : Aged w.delivery t noFresh) {queue wire reported : List MessageId}
    (hphase : Faithful claimed phase) :
    Dated ((⟨w.core, t, w.tasks, queue, wire, reported⟩ : World P F R).turn i now phase) :=
  h.turn hclaimed hclock (.refl _)
    (fun m o' hget => (haged m o' hget).imp_right fun hfresh => hfresh.elim) hphase

theorem Dated.enqueued (h : Dated w) (hsound : w.Sound) {claimed : ClaimedOutboundDelivery F}
    (hclaimed : w.core.claims[i]? = some claimed) (hclock : (w.tasks i).clock ≤ now)
    {validation : RequestCheck}
    (hvalid : validation = .ok () → ∀ time, claimed.expiresAt = some time → now < time)
    {m : MessageId} {o : StoredWireOutbox P}
    (ho : enqueuedAt claimed.work.messageId now validation m o) : RowDated w.core.tables m o := by
  obtain ⟨rfl, hok, hcreated, hordered⟩ := ho
  have hmem := List.mem_of_getElem? hclaimed
  have hbehind := Generations.claims hsound.generations claimed hmem
  have htracked := hsound.tracked.claims claimed hmem
  have hdated := h.claims i claimed hclaimed
  obtain ⟨own, hown, hsubject, -⟩ := hbehind.row
  obtain ⟨row, hrow, hwork⟩ := hdated.row
  rw [hown] at hrow
  cases hrow
  refine ⟨hordered, _, own, claimed.work.generation, hown, ?_, ?_, fun c hc => ?_⟩
  · rw [hsubject]
    exact hbehind.message
  · rw [hwork, hcreated]
    exact le_trans hdated.clock hclock
  · rw [hsubject] at hc
    rw [hcreated]
    have hexpires : ∃ time, claimed.expiresAt = some time := by
      cases claimed with
      | executionCommand => exact ⟨_, rfl⟩
      | reconciliationRequest work run =>
        obtain ⟨r, hr⟩ := htracked.fits
        have hsame : DeliverySubject.reconciliationRequest r = .executionCommand c :=
          hr.symm.trans hc
        cases hsame
    obtain ⟨time, htime⟩ := hexpires
    obtain ⟨command, hcommand, rfl, hknown⟩ := subject_of_fits htracked.fits htime
    rw [hc] at hcommand
    cases hcommand
    exact ⟨command, hknown hdated.known, hvalid hok _ htime⟩

theorem Dated.prepareTask (h : Dated w) (hsound : w.Sound) {claimed : ClaimedOutboundDelivery F}
    (hclaimed : w.core.claims[i]? = some claimed) (hclock : (w.tasks i).clock ≤ now) :
    Dated (prepareTask env w i now claimed) := by
  have hdated := h.claimed hsound hclaimed
  unfold Core.prepareTask
  split
  · rename_i prepared t hprepared
    obtain ⟨validation, hpreparation, hvalid⟩ := prepareClaimed_ok env hprepared
    refine h.turn hclaimed hclock (.refl _) (fun m o' hget => ?_) ?_
    · exact (hpreparation.aged m o' hget).imp_right
        (h.enqueued hsound hclaimed hclock hvalid)
    · cases hpreparation with
      | told hstored hsame houtcome =>
        exact faithful_answered (tells_reports hdated hstored (durable_tells houtcome))
      | resumed hstored => exact faithful_about (congrArg some hstored.messageId)
      | rejected _ hm => exact faithful_answered (.rejected hm)
      | enqueued _ _ _ _ _ hd => exact faithful_about (congrArg some hd)
  · exact h.turn_tables hclaimed hclock (aged_refl _) (faithful_answered .failed)

theorem Dated.claimTask (h : Dated w) (hsound : w.Sound) {claimed : ClaimedOutboundDelivery F}
    (hclaimed : w.core.claims[i]? = some claimed) (hclock : (w.tasks i).clock ≤ now)
    (hm : d.outbox.messageId = claimed.work.messageId) : Dated (claimTask env w i now d) := by
  have hdated := h.claimed hsound hclaimed
  have heffect : ClaimEffect w.delivery (claimPrepared env.wire env.adapter w.delivery d now).2
      d.outbox.messageId now (claimPrepared env.wire env.adapter w.delivery d now).1 :=
    claimPrepared_effect now
  unfold Core.claimTask
  dsimp only
  generalize claimPrepared env.wire env.adapter w.delivery d now = result at heffect ⊢
  obtain ⟨after, t⟩ := result
  cases heffect with
  | offered hmessage _ hwritten =>
    have haged := writes_aged (.single (.message hwritten.write)) id
    refine h.turn_tables hclaimed hclock haged (faithful_about ?_)
    exact congrArg some ((stored_after hwritten.write).messageId.trans (hmessage.trans hm))
  | refused hmessage hwritten =>
    have haged := writes_aged (.single (.message hwritten.write)) id
    have hstored := stored_after hwritten.write
    rw [hmessage, hm] at hstored
    exact h.turn_tables hclaimed hclock haged
      (faithful_answered (durable_reports (hdated.aged haged) hstored))
  | raced hsame =>
    subst hsame
    exact h.turn_tables hclaimed hclock (aged_refl _) (faithful_about (congrArg some hm))
  | failed hsame =>
    subst hsame
    exact h.turn_tables hclaimed hclock (aged_refl _) (faithful_answered .failed)

theorem Dated.offerTask (h : Dated w) {claimed : ClaimedOutboundDelivery F}
    (hclaimed : w.core.claims[i]? = some claimed) (hclock : (w.tasks i).clock ≤ now)
    (hm : d.outbox.messageId = claimed.work.messageId) (live : Bool) :
    Dated (offerTask w i now d live) := by
  unfold Core.offerTask
  split
  · exact h.turn_tables hclaimed hclock (aged_refl _) (faithful_answered .failed)
  · split
    · exact h.turn_tables hclaimed hclock (aged_refl _) (faithful_about (congrArg some hm))
    · exact h.turn_tables hclaimed hclock (aged_refl _) (faithful_about (congrArg some hm))

theorem Dated.reportTask (h : Dated w) {claimed : ClaimedOutboundDelivery F}
    (hclaimed : w.core.claims[i]? = some claimed) (hclock : (w.tasks i).clock ≤ now)
    (hm : d.outbox.messageId = claimed.work.messageId) (outcome : SinkWriteOutcome) :
    Dated (reportTask w i now d outcome) := by
  have habout : Faithful claimed (.written d outcome : TaskPhase P) :=
    faithful_about (congrArg some hm)
  unfold Core.reportTask
  split
  · split
    · exact h.turn_tables hclaimed hclock (aged_refl _) habout
    · exact h
  · exact h.turn_tables hclaimed hclock (aged_refl _) habout

theorem Dated.completeTask (h : Dated w) (hsound : w.Sound) {claimed : ClaimedOutboundDelivery F}
    (hclaimed : w.core.claims[i]? = some claimed) (hclock : (w.tasks i).clock ≤ now)
    (hm : d.outbox.messageId = claimed.work.messageId) (outcome : SinkWriteOutcome) :
    Dated (completeTask env w i now d outcome) := by
  have hdated := h.claimed hsound hclaimed
  have heffect : WriteEffect w.delivery
      (completeWrite env.wire env.adapter w.delivery d outcome now).2 d.outbox.messageId now outcome
      (completeWrite env.wire env.adapter w.delivery d outcome now).1 :=
    completeWrite_effect outcome now
  unfold Core.completeTask
  dsimp only
  generalize completeWrite env.wire env.adapter w.delivery d outcome now = result at heffect ⊢
  obtain ⟨after, t⟩ := result
  cases heffect with
  | told hmessage _ hwrites hstored =>
    have haged := writes_aged hwrites id
    rw [hm] at hstored
    exact h.turn_tables hclaimed hclock haged
      (faithful_answered (durable_reports (hdated.aged haged) hstored))
  | raced hsame =>
    subst hsame
    exact h.turn_tables hclaimed hclock (aged_refl _) (faithful_about (congrArg some hm))
  | failed hsame =>
    subst hsame
    exact h.turn_tables hclaimed hclock (aged_refl _) (faithful_answered .failed)

theorem Dated.step (h : Dated w) (hsound : w.Sound) {call : WorldCall P F R}
    (hchange : WorldChange env w call w') : Dated w' := by
  cases hchange with
  | still => exact h
  | @claim config now =>
    have hcontinues := processorStep_continues env.payloads env.runStore hsound.tracked
      (.claim config now)
    refine h.after hcontinues (fun m o' hget => .inl ⟨o', hget, .refl o'⟩)
      (fun j held hheld => ?_) (fun time htime => ?_)
    · have hj : j ≠ w.core.claims.length := by
        have hlt := (List.getElem?_eq_some_iff.mp hheld).1
        omega
      rw [claimStep, turn_tasks, if_neg hj]
      exact ⟨le_rfl, id⟩
    · cases htime
      rw [claimStep, turn_tasks, if_pos rfl]
  | hand => exact h.tables (aged_refl _)
  | @store call hforeign => exact h.tables (foreign_aged hforeign)
  | @core call hbusiness =>
    have hcontinues := processorStep_continues env.payloads env.runStore hsound.tracked call
    refine h.after hcontinues (fun m o' hget => .inl ⟨o', hget, .refl o'⟩)
      (fun _ _ _ => ⟨le_rfl, id⟩) fun time htime => ?_
    cases call with
    | claim => cases hbusiness
    | _ => cases htime
  | @task i now call claimed _ hclaimed hclock htask =>
    have hfaithful := (h.claims i claimed hclaimed).faithful
    have hfinish : ∀ config answer, Dated (finishTask env w i now config answer) :=
      fun config answer => h.turn hclaimed hclock
        (processorStep_continues env.payloads env.runStore hsound.tracked
          (.finish config i answer now))
        (fun m o' hget => .inl ⟨o', hget, .refl o'⟩) (faithful_finished claimed)
    generalize (w.tasks i).phase = phase at htask hfaithful
    cases htask with
    | prepare => exact h.prepareTask env hsound hclaimed hclock
    | late => exact hfinish _ _
    | finish => exact hfinish _ _
    | claim => exact h.claimTask env hsound hclaimed hclock (hfaithful.about _ rfl)
    | offer => exact h.offerTask hclaimed hclock (hfaithful.about _ rfl) _
    | report => exact h.reportTask hclaimed hclock (hfaithful.about _ rfl) _
    | complete => exact h.completeTask env hsound hclaimed hclock (hfaithful.about _ rfl) _
    | @reload m observedAt =>
      have hm := hfaithful.about m rfl
      subst hm
      exact h.turn_tables hclaimed hclock (aged_refl _)
        (faithful_answered (reload_reports (h.claimed hsound hclaimed)))

omit [DecidableEq P] [DecidableEq F] [F64 F] in
theorem freshWorld_dated (tables : CommandTables P F) (runs : R) (parents : Parents P) :
    Dated (freshWorld tables runs parents) where
  rows := fun _ _ h => (nomatch h)
  claims := fun _ _ h => (nomatch h)

/-! ## written commands -/

/-- the answer a task finishes its claim with; a late claim has had no delivery -/
def TaskPhase.finishes (claimed : ClaimedOutboundDelivery F) :
    TaskPhase P → Option (Delivery DeliveryOutcome)
  | .claimed => if claimed.Late then some noDelivery else none
  | .answered answer => some answer
  | _ => none

variable (tables : CommandTables P F) (runs : R) (parents : Parents P)
  (calls : List (WorldCall P F R))

theorem worldAt_dated (k : Nat) : Dated (worldAt env tables runs parents calls k) := by
  have hboth : (worldAt env tables runs parents calls k).Sound ∧
      Dated (worldAt env tables runs parents calls k) :=
    before_invariant (P := fun w : World P F R => w.Sound ∧ Dated w) _ _ calls
      ⟨freshWorld_sound tables runs parents, freshWorld_dated tables runs parents⟩
      (fun w call h => ⟨h.1.step env call, h.2.step env h.1 (worldStep_change env w call)⟩) k
  exact hboth.2

theorem finish_current (hsound : w.Sound) {claimed : ClaimedOutboundDelivery F}
    (hclaimed : w.core.claims[i]? = some claimed)
    (h : Ending w.core.tables t' claimed.work now answer) {g : Nat}
    (hlive : w.Live (messageId claimed.work.subject g)) :
    claimed.work.messageId = messageId claimed.work.subject g := by
  have hmem := List.mem_of_getElem? hclaimed
  have hbehind := Generations.claims hsound.generations claimed hmem
  obtain ⟨finish, current, row, hfinished, hid, hrevision⟩ := h.finished
  have hcurrent := hbehind.finished hfinished hid hrevision
  have hsource := hfinished.source
  rw [hid, hcurrent] at hsource
  obtain ⟨id, row', hrow', hm⟩ := hsound.current hlive
  obtain ⟨hsubject, hgeneration⟩ := messageId_inj hm
  have hid' := (hsound.tracked.named id row' hrow').1
  rw [← hsubject, ← (hsound.tracked.claims claimed hmem).named] at hid'
  rw [hid', hsource] at hrow'
  cases hrow'
  rw [hbehind.message, hgeneration]

/-- **A written command is not treated as unsent**, at every finish of every run.  When a sink has
reported a message of the command as written, or as possibly written, a worker that finishes the work
of the command does not expire it and does not give the message up, and leaves it past CREATED unless
its answer is excused. -/
theorem written_command_leaves_created {k i : Nat} {now : Int} {config : DurableOutboundConfig}
    {claimed : ClaimedOutboundDelivery F} {answer : Delivery DeliveryOutcome}
    {t' : OutboundTables P F R} {c : CommandId} {g : Nat}
    (hclaimed : (worldAt env tables runs parents calls k).core.claims[i]? = some claimed)
    (hc : claimed.work.subject = .executionCommand c)
    (hreported : messageId (.executionCommand c) g ∈
      (worldAt env tables runs parents calls k).reported)
    (hanswer : ((worldAt env tables runs parents calls k).tasks i).phase.finishes claimed
      = some answer)
    (hfinish : finishClaim env.payloads env.runStore config
      (worldAt env tables runs parents calls k).core i answer now = .ok t') :
    (LeftCreated t'.states c ∨ ∃ expiresAt, claimed.expiresAt = some expiresAt ∧
      Excused (messageId (.executionCommand c) g) expiresAt now answer) ∧
    (∀ s s', (worldAt env tables runs parents calls k).core.tables.states.get c = some s →
      s.status = .created → t'.states.get c = some s' → s'.status ≠ .expired) ∧
    ∃ row, t'.works.get (workId (.executionCommand c)) = some row ∧
      row.messageId = messageId (.executionCommand c) g := by
  have hsound := worldAt_sound env tables runs parents calls k
  have hdated := worldAt_dated env tables runs parents calls k
  generalize worldAt env tables runs parents calls k = w at *
  have hlive : w.Live (messageId claimed.work.subject g) := by
    rw [hc]
    exact (hsound.copies.reported _ hreported).imp_right .inl
  obtain ⟨claimed', hclaimed', htracked, hending, -⟩ :=
    finishClaim_ok env.payloads env.runStore hsound.tracked hfinish
  rw [hclaimed] at hclaimed'
  cases hclaimed'
  have hm := finish_current hsound hclaimed hending hlive
  have hfaithful := (hdated.claims i claimed hclaimed).faithful
  -- the answer speaks of a message whose frame is about, so it does not disclaim it
  have hclaims : ¬ Disclaims claimed.work.messageId answer ∧
      (¬ claimed.Late → Reports claimed.work claimed.expiresAt answer) := by
    cases hphase : (w.tasks i).phase <;> rw [hphase] at hanswer hfaithful <;>
      simp only [TaskPhase.finishes] at hanswer
    case claimed =>
      split at hanswer
      · rename_i hlate
        cases hanswer
        exact ⟨id, fun hnot => absurd hlate hnot⟩
      · cases hanswer
    case answered told =>
      cases hanswer
      refine ⟨fun hdisclaims => ?_, fun _ => hfaithful.answer _ rfl⟩
      have hdead := hsound.copies.answered i _ _ hphase hdisclaims
      rw [hm] at hdead
      exact hdead.1 hlive
    all_goals cases hanswer
  rw [← hc, ← hm]
  refine ⟨?_, fun s s' hget hcreated hget' => ?_, ?_⟩
  · simp only [finishClaim, bind_ok, need_ok, pure_ok] at hfinish
    obtain ⟨claimed', hclaimed', ⟨result, t₁⟩, hdelivery, rfl⟩ := hfinish
    rw [hclaimed] at hclaimed'
    cases hclaimed'
    exact finishDelivery_left htracked.fits hc (fun hlate => htracked.late hlate c hc) hclaims.2
      hclaims.1 hdelivery
  · exact hending.never_expired (fun hexpired => hclaims.1 (disclaims_of_expired hexpired)) hget
      hcreated hget'
  · rw [← htracked.named]
    have hbehind := Generations.claims hsound.generations claimed (List.mem_of_getElem? hclaimed)
    exact hending.keeps hbehind fun hunsent => hclaims.1 (disclaims_of_unsent hunsent)

end

/-! ## the write that is reported, and the peer that refuses it -/

def goldReceipt : DeliveryReceipt where
  attemptId := "attempt:msg:execution.command:cmd:v1"
  messageId := goldMessage
  sessionId := "s1"
  sequence := 2
  sentAt := 26
  confirmationDeadlineAt := 5026

def completedCalls : List (WorldCall String ℚ Unit) := writtenCalls ++ [.task 0 26 .complete]

/-- the run before its finish -/
abbrev completedWorld : World String ℚ Unit :=
  worldAt goldSetting emptyCommands () cancelParents completedCalls 9

theorem written_command_leaves_created_sample :
    ∃ claimed t', completedWorld.core.claims[0]? = some claimed ∧
      finishClaim goldSetting.payloads goldSetting.runStore workerConfig completedWorld.core 0
        (.ok (.sent goldReceipt)) 27 = .ok t' ∧
      (LeftCreated t'.states "cmd" ∨ ∃ expiresAt, claimed.expiresAt = some expiresAt ∧
        Excused (messageId (.executionCommand "cmd") 1) expiresAt 27 (.ok (.sent goldReceipt))) := by
  have hclaims : (completedWorld.core.claims[0]?.map fun claimed =>
      (claimed.work.subject, (completedWorld.tasks 0).phase.finishes claimed))
        = some (.executionCommand "cmd", some (.ok (.sent goldReceipt))) := by decide +kernel
  obtain ⟨claimed, hclaimed, hends⟩ := Option.map_eq_some_iff.mp hclaims
  obtain ⟨hsubject, hanswer⟩ := Prod.mk.inj hends
  have hfinishes : (finishClaim goldSetting.payloads goldSetting.runStore workerConfig
      completedWorld.core 0 (.ok (.sent goldReceipt)) 27).toOption.isSome = true := by decide +kernel
  cases hfinish : finishClaim goldSetting.payloads goldSetting.runStore workerConfig
      completedWorld.core 0 (.ok (.sent goldReceipt)) 27 with
  | error e =>
    rw [hfinish] at hfinishes
    cases hfinishes
  | ok t' =>
    exact ⟨claimed, t', hclaimed, rfl,
      (written_command_leaves_created goldSetting emptyCommands () cancelParents completedCalls
        hclaimed hsubject (by decide +kernel) hanswer hfinish).1⟩

/-- the frame is on the wire and reported when the peer refuses it -/
def refusedCalls : List (WorldCall String ℚ Unit) :=
  writtenCalls ++ [.store (.recordTransportAck
    ⟨goldMessage, "s1", "execution.command", .rejected, some "busy", 25⟩), .task 0 26 .complete]

def goldRefusal : DeliveryRejection where
  attemptId := "attempt:msg:execution.command:cmd:v1"
  messageId := goldMessage
  sessionId := some "s1"
  rejectedAt := 26
  reason := .transportRejected "busy"

abbrev refusedWorld : World String ℚ Unit :=
  worldAt goldSetting emptyCommands () cancelParents refusedCalls 10

/-- the work of a written command is finished and the command is CREATED: the peer refused the frame -/
theorem refused_write_stays_created :
    ¬ ∀ (calls : List (WorldCall String ℚ Unit)) (k i : Nat) (now : Int)
        (config : DurableOutboundConfig) (claimed : ClaimedOutboundDelivery ℚ)
        (answer : Delivery DeliveryOutcome) (t' : OutboundTables String ℚ Unit) (c : CommandId)
        (g : Nat),
      (worldAt goldSetting emptyCommands () cancelParents calls k).core.claims[i]? = some claimed →
      claimed.work.subject = .executionCommand c →
      messageId (.executionCommand c) g ∈
        (worldAt goldSetting emptyCommands () cancelParents calls k).reported →
      ((worldAt goldSetting emptyCommands () cancelParents calls k).tasks i).phase.finishes claimed
        = some answer →
      finishClaim goldSetting.payloads goldSetting.runStore config
        (worldAt goldSetting emptyCommands () cancelParents calls k).core i answer now = .ok t' →
      LeftCreated t'.states c := by
  intro h
  have hclaims : (refusedWorld.core.claims[0]?.map fun claimed =>
      (claimed.work.subject, (refusedWorld.tasks 0).phase.finishes claimed))
        = some (.executionCommand "cmd", some (.ok (.rejected goldRefusal))) := by decide +kernel
  obtain ⟨claimed, hclaimed, hends⟩ := Option.map_eq_some_iff.mp hclaims
  obtain ⟨hsubject, hanswer⟩ := Prod.mk.inj hends
  have hstatus : ((finishClaim goldSetting.payloads goldSetting.runStore workerConfig
      refusedWorld.core 0 (.ok (.rejected goldRefusal)) 27).toOption.bind fun t' =>
        (t'.states.get "cmd").map ExecutionCommandState.status) = some .created := by decide +kernel
  cases hfinish : finishClaim goldSetting.payloads goldSetting.runStore workerConfig
      refusedWorld.core 0 (.ok (.rejected goldRefusal)) 27 with
  | error e =>
    rw [hfinish] at hstatus
    cases hstatus
  | ok t' =>
    obtain ⟨s, hget, hleft⟩ := h refusedCalls 10 0 27 workerConfig claimed _ t' "cmd" 1 hclaimed
      hsubject (by decide +kernel) hanswer hfinish
    rw [hfinish] at hstatus
    change (t'.states.get "cmd").map ExecutionCommandState.status = some .created at hstatus
    rw [hget] at hstatus
    exact hleft (Option.some.inj hstatus)

end Sinan.Core
