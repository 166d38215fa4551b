import Sinan.Core.Finish
import Sinan.Store.Agreement

/-!
# Runs of the outbound processor

Any number of workers claim and finish work, in any order and with any answer of the delivery; a
worker that crashes does not finish its claim.  Other components add commands, apply evidence to the
states and change plans, events and reconciliation runs.  A failed call changes nothing.

The invariant of these runs says what DELIVERED work means: the command has left CREATED, unless the
work was ended by a permanent rejection.
-/

set_option linter.unusedSectionVars false

namespace Sinan.Core

open Lib Execution Store

/-- the tables, and every claim that a worker has made so far -/
structure Processor (P F R : Type) where
  tables : OutboundTables P F R
  claims : List (ClaimedOutboundDelivery F)

inductive ProcessorCall (P F R : Type) where
  | claim (config : DurableOutboundConfig) (now : Int)
  | finish (config : DurableOutboundConfig) (claim : Nat) (answer : Delivery DeliveryOutcome)
      (now : Int)
  | command (row : CommandRow F) (state : ExecutionCommandState)
  | evidence (commandId : CommandId) (evidence : CommandEvidence F)
  | others (plans : Tables P F) (events : List (ExecutionEvent F)) (runs : R)

section
variable {P F R : Type} [DecidableEq P] [DecidableEq F] [F64 F]

/-- a new command comes with its pristine state -/
def insertCommand (t : OutboundTables P F R) (row : CommandRow F)
    (state : ExecutionCommandState) : Outbound (OutboundTables P F R) := do
  match validateInitialCommandState state ⟨row.command, row.riskId, row.createdAt⟩ with
  | .error reason => .error (.invariant reason)
  | .ok _ =>
    let commands ← need (t.commands.insert row) (.store .database)
    let states ← need (t.states.insert state) (.store .database)
    return { t with commands := commands, states := states }

/-- evidence reaches a state through the lifecycle -/
def applyEvidence (t : OutboundTables P F R) (commandId : CommandId)
    (evidence : CommandEvidence F) : Outbound (OutboundTables P F R) := do
  let row ← need (t.commands.get commandId) (.invariant "command does not exist")
  let current ← requiredState t commandId " has no lifecycle state"
  let next ← transitionState row.command current evidence
  if next = current then return t else writeState t current next

variable (codec : PayloadCodec P F) (runStore : RunStore R)

/-- the finish of a claim, if there is one of that number -/
def finishClaim (config : DurableOutboundConfig) (s : Processor P F R) (claim : Nat)
    (answer : Delivery DeliveryOutcome) (now : Int) : Outbound (OutboundTables P F R) := do
  let claimed ← need s.claims[claim]? (.invariant "no such claim")
  let finished ← finishDelivery codec runStore config s.tables claimed answer now
  return finished.2

/-- the tables of a call that succeeded, or those before it -/
def orKeep (s : Processor P F R) (r : Outbound (OutboundTables P F R)) : Processor P F R :=
  match r with
  | .ok t => { s with tables := t }
  | .error _ => s

def processorStep (s : Processor P F R) : ProcessorCall P F R → Processor P F R
  | .claim config now =>
    match claimDelivery runStore config s.tables now with
    | .ok (claimed, t) => ⟨t, s.claims ++ claimed.toList⟩
    | .error _ => s
  | .finish config claim answer now =>
    orKeep s (finishClaim codec runStore config s claim answer now)
  | .command row state => orKeep s (insertCommand s.tables row state)
  | .evidence commandId evidence => orKeep s (applyEvidence s.tables commandId evidence)
  | .others plans events runs =>
    { s with tables := { s.tables with plans := plans, events := events, runs := runs } }

/-- commands and runs, and no outbound work yet -/
def freshProcessor (tables : CommandTables P F) (runs : R) : Processor P F R :=
  ⟨{ tables with runs := runs, works := .empty }, []⟩

/-! ## the claims of workers -/

variable {t : OutboundTables P F R} {work : StoredOutboundDeliveryWork}

omit [DecidableEq P] [DecidableEq F] [F64 F] in
theorem loadClaimed_ok {runStore : RunStore R} {claimed : ClaimedOutboundDelivery F}
    (h : loadClaimed runStore t work = .ok claimed) :
    claimed.work = work ∧ claimed.Fits ∧
      (∀ c, work.subject = .executionCommand c → ∃ s, t.states.get c = some s ∧
        (claimed.Late → s.status ≠ .created)) := by
  unfold loadClaimed at h
  split at h
  · rename_i c hsubject
    simp only [bind_ok, need_ok, pure_ok] at h
    obtain ⟨command, hcommand, state, hstate, context, -, rfl⟩ := h
    have hkey := Table.key_of_get hcommand
    refine ⟨rfl, ?_, fun c' hc' => ?_⟩
    · show work.subject = .executionCommand command.command.commandId
      rw [hsubject]
      exact congrArg _ hkey.symm
    · rw [hsubject] at hc'
      cases hc'
      exact ⟨state, hstate, id⟩
  · rename_i requestId hsubject
    simp only [bind_ok, need_ok, pure_ok] at h
    obtain ⟨found, -, run, -, rfl⟩ := h
    refine ⟨rfl, ⟨requestId, hsubject⟩, fun c hc => ?_⟩
    rw [hsubject] at hc
    cases hc

/-- what a claim did: nothing was due, or a row was leased and its subject loaded -/
structure ClaimedWork (runStore : RunStore R) (t t' : OutboundTables P F R) (now : Int)
    (claimed : ClaimedOutboundDelivery F) : Prop where
  leased : ∃ claim current, claim.claimedAt = now ∧
    Leased t.works t'.works claim current claimed.work
  load : loadClaimed runStore t claimed.work = .ok claimed

variable {t' : OutboundTables P F R} {config : DurableOutboundConfig}

omit [DecidableEq P] [DecidableEq F] [F64 F] in
theorem claimDelivery_ok {runStore : RunStore R} {now : Int}
    {claimed : Option (ClaimedOutboundDelivery F)}
    (h : claimDelivery runStore config t now = .ok (claimed, t')) :
    t' = { t with works := t'.works } ∧
      ((claimed = none ∧ t' = t) ∨
        ∃ held, claimed = some held ∧ ClaimedWork runStore t t' now held) := by
  simp only [claimDelivery, nowMs, claimNext, bind_ok, exists_unit, reject_ok, pure_ok, need_ok,
    ofStore_ok, Prod.mk.injEq] at h
  obtain ⟨now', ⟨-, rfl⟩, lease, -, ⟨work, works⟩, hclaim, loaded, hload, rfl, rfl⟩ := h
  refine ⟨rfl, ?_⟩
  rcases claimNextOutboundDelivery_ok hclaim with ⟨rfl, rfl⟩ | ⟨current, work', rfl, hleased⟩
  · cases hload
    exact .inl ⟨rfl, rfl⟩
  · simp only [loadNext, bind_ok, pure_ok] at hload
    obtain ⟨held, hheld, rfl⟩ := hload
    obtain ⟨hwork, -, -⟩ := loadClaimed_ok hheld
    refine .inr ⟨held, rfl, ⟨⟨⟨config.workerId, now, lease⟩, current, rfl, ?_⟩, ?_⟩⟩ <;> rw [hwork]
    · exact hleased
    · exact hheld

/-! ## the invariant -/

/-- the command is known, and has left CREATED -/
def LeftCreated (states : StateTable) (c : CommandId) : Prop :=
  ∃ s, states.get c = some s ∧ s.status ≠ .created

variable {c : CommandId}

theorem LeftCreated.onward {states states' : StateTable} (h : LeftCreated states c)
    (ho : Onward states states') : LeftCreated states' c := by
  obtain ⟨s, hs, hleft⟩ := h
  obtain ⟨s', hs', hadvance⟩ := ho c s hs
  exact ⟨s', hs', left_created hadvance hleft⟩

/-- a work row of a command, and what its end means -/
structure RowTracked (states : StateTable) (row : StoredOutboundDeliveryWork) : Prop where
  known : ∀ c, row.subject = .executionCommand c → ∃ s, states.get c = some s
  ended : ∀ c, row.subject = .executionCommand c → row.status = .delivered →
    row.lastOutcome ≠ some .permanentRejection → LeftCreated states c

theorem RowTracked.onward {states states' : StateTable} {row : StoredOutboundDeliveryWork}
    (h : RowTracked states row) (ho : Onward states states') : RowTracked states' row where
  known := by
    intro c hc
    obtain ⟨s, hs⟩ := h.known c hc
    obtain ⟨s', hs', -⟩ := ho c s hs
    exact ⟨s', hs'⟩
  ended := fun c hc hstatus houtcome => (h.ended c hc hstatus houtcome).onward ho

/-- a claim: its row is named after its subject, and a claim that came late stays late -/
structure ClaimTracked (states : StateTable) (claimed : ClaimedOutboundDelivery F) : Prop where
  named : claimed.work.workId = workId claimed.work.subject
  fits : claimed.Fits
  late : claimed.Late → ∀ c, claimed.work.subject = .executionCommand c → LeftCreated states c

omit [DecidableEq F] [F64 F] in
theorem ClaimTracked.onward {states states' : StateTable} {claimed : ClaimedOutboundDelivery F}
    (h : ClaimTracked states claimed) (ho : Onward states states') : ClaimTracked states' claimed :=
  ⟨h.named, h.fits, fun hlate c hc => (h.late hlate c hc).onward ho⟩

structure Tracked (s : Processor P F R) : Prop where
  named : WellNamed s.tables.works
  rows : ∀ id row, s.tables.works.get id = some row → RowTracked s.tables.states row
  claims : ∀ claimed ∈ s.claims, ClaimTracked s.tables.states claimed

variable {s : Processor P F R}

omit [DecidableEq P] [DecidableEq F] [F64 F] in
theorem Tracked.business (h : Tracked s) (hworks : t.works = s.tables.works)
    (ho : Onward s.tables.states t.states) :
    Tracked (⟨t, s.claims⟩ : Processor P F R) where
  named := by
    show WellNamed t.works
    rw [hworks]
    exact h.named
  rows := by
    intro id row hrow
    change t.works.get id = some row at hrow
    rw [hworks] at hrow
    exact (h.rows id row hrow).onward ho
  claims := fun claimed hmem => (h.claims claimed hmem).onward ho

omit [DecidableEq P] [DecidableEq F] [F64 F] in
theorem freshProcessor_tracked (tables : CommandTables P F) (runs : R) :
    Tracked (freshProcessor tables runs) where
  named := fun _ _ h => (nomatch h)
  rows := fun _ _ h => (nomatch h)
  claims := fun _ h => absurd h List.not_mem_nil

/-! ## one step -/

variable {answer : Delivery DeliveryOutcome} {subject : OutboundDeliveryWorkSubject}
  {outcome : OutboundDeliveryWorkOutcome} {finishedAt : Int}

omit [DecidableEq P] [DecidableEq F] [F64 F] in
theorem Tracked.claimed {runStore : RunStore R} {now : Int} {held : ClaimedOutboundDelivery F}
    (h : Tracked s) (hstates : t'.states = s.tables.states)
    (hclaim : ClaimedWork runStore s.tables t' now held) :
    Tracked (⟨t', s.claims ++ [held]⟩ : Processor P F R) := by
  obtain ⟨⟨claim, current, -, hleased⟩, hload⟩ := hclaim
  obtain ⟨hid, hnamed⟩ := hleased.wellNamed h.named
  obtain ⟨-, hfits, hread⟩ := loadClaimed_ok hload
  have hprocessing : held.work.status = .processing := by rw [hleased.row]
  refine ⟨hnamed, fun id row hrow => ?_, fun claimed hmem => ?_⟩
  · change t'.works.get id = some row at hrow
    show RowTracked t'.states row
    rw [hstates]
    rw [hleased.after] at hrow
    split at hrow
    · cases hrow
      refine ⟨fun c hc => ?_, fun c hc hdelivered => ?_⟩
      · obtain ⟨state, hstate, -⟩ := hread c hc
        exact ⟨state, hstate⟩
      · rw [hprocessing] at hdelivered
        cases hdelivered
    · exact h.rows id row hrow
  · show ClaimTracked t'.states claimed
    rw [hstates]
    rcases List.mem_append.mp hmem with hold | hnew
    · exact h.claims claimed hold
    · cases List.mem_singleton.mp hnew
      refine ⟨hid, hfits, fun hlate c hc => ?_⟩
      obtain ⟨state, hstate, hleft⟩ := hread c hc
      exact ⟨state, hstate, hleft hlate⟩

theorem WorkEnd.onward {m : MessageId} (h : WorkEnd t t' m subject outcome answer) :
    Onward t.states t'.states := by
  cases h with
  | gone hstates | refused hstates | run hstates =>
    rw [hstates]
    exact Onward.refl _
  | moved _ hget _ hafter hadvance => exact hafter.onward hget hadvance

theorem WorkEnd.left {m : MessageId} (h : WorkEnd t t' m subject outcome answer)
    (houtcome : outcome ≠ .permanentRejection) (hc : subject = .executionCommand c) :
    LeftCreated t'.states c := by
  cases h with
  | gone hstates _ hgone =>
    rw [hstates]
    exact hgone c hc
  | refused _ hpermanent => exact absurd hpermanent houtcome
  | run _ hsubject =>
    obtain ⟨r, hr⟩ := hsubject
    rw [hc] at hr
    cases hr
  | @moved c' s s' hsubject hget hcreated hafter hadvance _ hmoved =>
    rw [hc] at hsubject
    cases hsubject
    have hid : s'.commandId = c := hadvance.commandId.trans (stateId_of_get hget)
    refine ⟨s', ?_, ?_⟩
    · rw [hafter, if_pos hid]
    · rcases hmoved with ⟨-, hstatus | hstatus⟩ | ⟨-, hstatus⟩ <;> rw [hstatus] <;> decide

theorem Ending.finished (h : Ending t t' work finishedAt answer) :
    ∃ finish current row, Finished t.works t'.works finish current row ∧
      finish.workId = work.workId ∧ finish.expectedRevision = work.revision := by
  cases h with
  | retried hretry hwork =>
    obtain ⟨current, hfinished, -⟩ := retryOutboundDeliveryWork_ok hretry
    exact ⟨_, current, _, hfinished, hwork.1, hwork.2.1⟩
  | completed hcomplete hwork =>
    obtain ⟨current, hfinished, -⟩ := completeOutboundDeliveryWork_ok hcomplete
    exact ⟨_, current, _, hfinished, hwork.1, hwork.2.1⟩

theorem Ending.onward (h : Ending t t' work finishedAt answer) : Onward t.states t'.states := by
  cases h with
  | retried _ _ hstates =>
    rw [hstates]
    exact Onward.refl _
  | completed _ _ hend => exact hend.onward

theorem finished_subject {works works' : WorkTable} {finish : WorkFinish}
    {current row : StoredOutboundDeliveryWork} (h : Finished works works' finish current row)
    (hnamed : WellNamed works) (hwork : finish.workId = work.workId)
    (hid : work.workId = workId work.subject) :
    row.subject = work.subject := by
  have hcurrent := (hnamed _ _ h.source).1
  rw [hwork, hid] at hcurrent
  rw [h.subject]
  exact (workId_inj hcurrent).symm

theorem Ending.row (h : Ending t t' work finishedAt answer) (hnamed : WellNamed t.works)
    (hid : work.workId = workId work.subject)
    (hrows : ∀ id row, t.works.get id = some row → RowTracked t.states row) :
    ∀ id row, t'.works.get id = some row → RowTracked t'.states row := by
  intro id row hrow
  have ho := h.onward
  cases h with
  | @retried r new hretry hwork hstates hopen hadvance =>
    obtain ⟨current, hfinished, hpending, -⟩ := retryOutboundDeliveryWork_ok hretry
    rw [hfinished.after] at hrow
    split at hrow
    · cases hrow
      have hcurrent := (hrows _ _ hfinished.source).onward ho
      refine ⟨fun c hc => hcurrent.known c (hfinished.subject ▸ hc), fun c hc hdelivered => ?_⟩
      rw [hpending] at hdelivered
      cases hdelivered
    · exact (hrows id row hrow).onward ho
  | @completed k new hcomplete hwork hend =>
    obtain ⟨current, hfinished, -, -, houtcome, -⟩ := completeOutboundDeliveryWork_ok hcomplete
    rw [hfinished.after] at hrow
    split at hrow
    · cases hrow
      have hcurrent := (hrows _ _ hfinished.source).onward ho
      have hsubject := finished_subject hfinished hnamed hwork.1 hid
      refine ⟨fun c hc => hcurrent.known c (hfinished.subject ▸ hc), fun c hc _ hnot => ?_⟩
      refine hend.left (fun hpermanent => hnot ?_) (hsubject ▸ hc)
      rw [houtcome, hpermanent]
    · exact (hrows id row hrow).onward ho

theorem insertCommand_ok {row : CommandRow F} {state : ExecutionCommandState}
    (h : insertCommand t row state = .ok t') :
    t'.works = t.works ∧ Onward t.states t'.states := by
  unfold insertCommand at h
  split at h
  · cases h
  · simp only [bind_ok, need_ok, pure_ok] at h
    obtain ⟨commands, -, states, hstates, rfl⟩ := h
    exact ⟨rfl, fun c s hs => ⟨s, Table.get_insert_of_some hstates hs, advances_refl s⟩⟩

theorem applyEvidence_ok {evidence : CommandEvidence F} (h : applyEvidence t c evidence = .ok t') :
    t'.works = t.works ∧ Onward t.states t'.states := by
  simp only [applyEvidence, requiredState, bind_ok, need_ok] at h
  obtain ⟨row, -, current, hcurrent, next, hnext, h⟩ := h
  split at h
  · cases h
    exact ⟨rfl, Onward.refl _⟩
  · obtain ⟨hafter, hworks, -⟩ := writeState_ok h
    exact ⟨hworks, hafter.onward hcurrent (transitionState_advances hnext)⟩

theorem finishClaim_ok {claim : Nat} {now : Int} (h : Tracked s)
    (hfinish : finishClaim codec runStore config s claim answer now = .ok t') :
    ∃ claimed, s.claims[claim]? = some claimed ∧ ClaimTracked s.tables.states claimed ∧
      Ending s.tables t' claimed.work now answer ∧ t'.commands = s.tables.commands := by
  simp only [finishClaim, bind_ok, need_ok, pure_ok] at hfinish
  obtain ⟨claimed, hclaimed, ⟨result, t₁⟩, hdelivery, rfl⟩ := hfinish
  have htracked := h.claims claimed (List.mem_of_getElem? hclaimed)
  exact ⟨claimed, hclaimed, htracked, finishDelivery_ok htracked.fits htracked.late hdelivery⟩

theorem Tracked.step (h : Tracked s) (call : ProcessorCall P F R) :
    Tracked (processorStep codec runStore s call) := by
  cases call with
  | claim config now =>
    simp only [processorStep]
    split
    · rename_i claimed t hclaim
      obtain ⟨hsame, ⟨rfl, rfl⟩ | ⟨held, rfl, hheld⟩⟩ := claimDelivery_ok hclaim
      · show Tracked (⟨s.tables, s.claims ++ []⟩ : Processor P F R)
        rw [List.append_nil]
        exact h
      · have hstates : t.states = s.tables.states := by rw [hsame]
        exact h.claimed hstates hheld
    · exact h
  | finish config claim answer now =>
    simp only [processorStep]
    cases hfinish : finishClaim codec runStore config s claim answer now with
    | error e => exact h
    | ok t' =>
      obtain ⟨claimed, -, htracked, hending, -⟩ := finishClaim_ok codec runStore h hfinish
      obtain ⟨finish, current, row, hfinished, -⟩ := hending.finished
      exact ⟨hfinished.wellNamed h.named, hending.row h.named htracked.named h.rows,
        fun claimed hmem => (h.claims claimed hmem).onward hending.onward⟩
  | command row state =>
    simp only [processorStep]
    cases hinsert : insertCommand s.tables row state with
    | error e => exact h
    | ok t' => exact h.business (insertCommand_ok hinsert).1 (insertCommand_ok hinsert).2
  | evidence c evidence =>
    simp only [processorStep]
    cases hevidence : applyEvidence s.tables c evidence with
    | error e => exact h
    | ok t' => exact h.business (applyEvidence_ok hevidence).1 (applyEvidence_ok hevidence).2
  | others plans events runs => exact h.business rfl (Onward.refl _)

/-- what one call does to the work table -/
inductive WorkChange (s s' : Processor P F R) : ProcessorCall P F R → Prop
  | same {call : ProcessorCall P F R} (hworks : s'.tables.works = s.tables.works) :
      WorkChange s s' call
  | leased {config : DurableOutboundConfig} {now : Int} {held : ClaimedOutboundDelivery F}
      (hclaim : ClaimedWork runStore s.tables s'.tables now held) :
      WorkChange s s' (.claim config now)
  | finished {config : DurableOutboundConfig} {claim : Nat} {answer : Delivery DeliveryOutcome}
      {now : Int} {claimed : ClaimedOutboundDelivery F} (hclaimed : s.claims[claim]? = some claimed)
      (htracked : ClaimTracked s.tables.states claimed)
      (hending : Ending s.tables s'.tables claimed.work now answer) :
      WorkChange s s' (.finish config claim answer now)

theorem processorStep_change (h : Tracked s) (call : ProcessorCall P F R) :
    WorkChange runStore s (processorStep codec runStore s call) call := by
  cases call with
  | claim config now =>
    simp only [processorStep]
    cases hclaim : claimDelivery runStore config s.tables now with
    | error e => exact .same rfl
    | ok claimed =>
      obtain ⟨-, ⟨-, hsame⟩ | ⟨held, -, hheld⟩⟩ := claimDelivery_ok hclaim
      · exact .same (congrArg _ hsame)
      · exact .leased hheld
  | finish config claim answer now =>
    simp only [processorStep]
    cases hfinish : finishClaim codec runStore config s claim answer now with
    | error e => exact .same rfl
    | ok t' =>
      obtain ⟨claimed, hclaimed, htracked, hending, -⟩ := finishClaim_ok codec runStore h hfinish
      exact .finished hclaimed htracked hending
  | command row state =>
    simp only [processorStep]
    cases hinsert : insertCommand s.tables row state with
    | error e => exact .same rfl
    | ok t' => exact .same (insertCommand_ok hinsert).1
  | evidence c evidence =>
    simp only [processorStep]
    cases hevidence : applyEvidence s.tables c evidence with
    | error e => exact .same rfl
    | ok t' => exact .same (applyEvidence_ok hevidence).1
  | others plans events runs => exact .same rfl

end

/-! ## what a claim remembers -/

/-- the row of the work may have gone on since it was claimed; where it has not, it is the one that was
claimed -/
structure Behind (works : WorkTable) (work : StoredOutboundDeliveryWork) : Prop where
  row : ∃ row, works.get work.workId = some row ∧ row.subject = work.subject ∧
    work.revision ≤ row.revision ∧ work.generation ≤ row.generation ∧
    (work.revision = row.revision → row = work)
  message : work.messageId = messageId work.subject work.generation
  positive : 0 < work.generation

/-- the message is one of a row that has reached its generation -/
def Reached (works : WorkTable) (m : MessageId) : Prop :=
  ∃ id row g, works.get id = some row ∧ 0 < g ∧ g ≤ row.generation ∧ m = messageId row.subject g

theorem Behind.reached {works : WorkTable} {work : StoredOutboundDeliveryWork}
    (h : Behind works work) : Reached works work.messageId := by
  obtain ⟨row, hrow, hsubject, -, hgeneration, -⟩ := h.row
  refine ⟨work.workId, row, work.generation, hrow, h.positive, hgeneration, ?_⟩
  rw [hsubject]
  exact h.message

/-- the rows, the claims of the workers, and the messages that are dead or known -/
structure Generations {F : Type} (works : WorkTable) (claims : List (ClaimedOutboundDelivery F))
    (dead known : MessageId → Prop) : Prop where
  positive : ∀ id row, works.get id = some row → 0 < row.generation
  past : ∀ id row g, works.get id = some row → 0 < g → g < row.generation →
    dead (messageId row.subject g)
  claims : ∀ claimed ∈ claims, Behind works claimed.work
  known : ∀ m, known m → Reached works m

section
variable {F : Type} {works works' : WorkTable} {claims : List (ClaimedOutboundDelivery F)}
  {dead known dead' known' : MessageId → Prop}

theorem Generations.messages (h : Generations works claims dead known)
    (hdead : ∀ m, dead m → dead' m)
    (hknown : ∀ m, known' m → known m ∨ ∃ claimed ∈ claims, m = claimed.work.messageId) :
    Generations works claims dead' known' where
  positive := h.positive
  past := fun id row g hrow hpos hg => hdead _ (h.past id row g hrow hpos hg)
  claims := h.claims
  known := by
    intro m hm
    rcases hknown m hm with hold | ⟨claimed, hmem, rfl⟩
    · exact h.known m hold
    · exact (h.claims claimed hmem).reached

/-- One row changes: it goes on from the row that was there, and past a generation only when its
message is dead; or it is new. -/
structure Advance (works works' : WorkTable) (dead : MessageId → Prop)
    (work : StoredOutboundDeliveryWork) : Prop where
  after : WorksAfter works works' work
  source : (∃ current, works.get work.workId = some current ∧ work.subject = current.subject ∧
      work.revision = current.revision + 1 ∧
      (work.generation = current.generation ∨ (work.generation = current.generation + 1 ∧
        dead (messageId current.subject current.generation)))) ∨
    (works.get work.workId = none ∧ work.generation = 1)

variable {work : StoredOutboundDeliveryWork}

theorem Advance.positive (hrow : Advance works works' dead work)
    (h : Generations works claims dead known) : 0 < work.generation := by
  rcases hrow.source with ⟨current, hget, -, -, hsame | ⟨hnext, -⟩⟩ | ⟨-, hfirst⟩
  · rw [hsame]
    exact h.positive _ _ hget
  · omega
  · omega

theorem Advance.forward (h : Advance works works' dead work) {id : String}
    {row : StoredOutboundDeliveryWork} (hrow : works.get id = some row) :
    ∃ row', works'.get id = some row' ∧ row'.subject = row.subject ∧
      row.generation ≤ row'.generation ∧ (row' = row ∨ row.revision < row'.revision) := by
  rw [h.after]
  split
  · rename_i hid
    rcases h.source with ⟨current, hget, hsubject, hrevision, hgeneration⟩ | ⟨hnone, -⟩
    · rw [hid, hrow] at hget
      cases hget
      refine ⟨work, rfl, hsubject, ?_, .inr ?_⟩
      · rcases hgeneration with hsame | ⟨hnext, -⟩ <;> omega
      · omega
    · rw [hid, hrow] at hnone
      cases hnone
  · exact ⟨row, hrow, rfl, le_rfl, .inl rfl⟩

theorem Behind.forward {held : StoredOutboundDeliveryWork} (h : Behind works held)
    (hrow : Advance works works' dead work) : Behind works' held := by
  obtain ⟨row, hget, hsubject, hrevision, hgeneration, hsame⟩ := h.row
  obtain ⟨row', hget', hsubject', hgeneration', hmoved⟩ := hrow.forward hget
  refine ⟨⟨row', hget', hsubject'.trans hsubject, ?_, le_trans hgeneration hgeneration', ?_⟩,
    h.message, h.positive⟩
  · rcases hmoved with rfl | hlater
    · exact hrevision
    · omega
  · intro heq
    rcases hmoved with rfl | hlater
    · exact hsame heq
    · omega

theorem Generations.advance (h : Generations works claims dead known)
    (hrow : Advance works works' dead work) :
    Generations works' claims dead known where
  positive := by
    intro id row hget
    rw [hrow.after] at hget
    split at hget
    · cases hget
      exact hrow.positive h
    · exact h.positive id row hget
  past := by
    intro id row g hget hpos hg
    rw [hrow.after] at hget
    split at hget
    · cases hget
      rcases hrow.source with ⟨current, hcurrent, hsubject, -, hgeneration⟩ | ⟨-, hfirst⟩
      · rw [hsubject]
        rcases hgeneration with hsame | ⟨hnext, hdead⟩
        · exact h.past _ current g hcurrent hpos (by omega)
        · -- the generation left behind is the last of the past ones
          by_cases hlast : g = current.generation
          · rw [hlast]
            exact hdead
          · exact h.past _ current g hcurrent hpos (by omega)
      · omega
    · exact h.past id row g hget hpos hg
  claims := fun claimed hmem => (h.claims claimed hmem).forward hrow
  known := by
    intro m hm
    obtain ⟨id, row, g, hget, hpos, hg, rfl⟩ := h.known m hm
    obtain ⟨row', hget', hsubject, hgeneration, -⟩ := hrow.forward hget
    exact ⟨id, row', g, hget', hpos, le_trans hg hgeneration, by rw [hsubject]⟩

theorem Generations.claimed (h : Generations works claims dead known)
    {held : ClaimedOutboundDelivery F} (hget : works.get held.work.workId = some held.work)
    (hmessage : held.work.messageId = messageId held.work.subject held.work.generation) :
    Generations works (claims ++ [held]) dead known where
  positive := h.positive
  past := h.past
  known := h.known
  claims := by
    intro claimed hmem
    rcases List.mem_append.mp hmem with hold | hnew
    · exact h.claims claimed hold
    · cases List.mem_singleton.mp hnew
      exact ⟨⟨_, hget, rfl, le_rfl, le_rfl, fun _ => rfl⟩, hmessage, h.positive _ _ hget⟩

theorem Leased.advance {claim : ClaimOutboundDeliveryWork} {current : StoredOutboundDeliveryWork}
    (h : Leased works works' claim current work) :
    Advance works works' dead work where
  after := h.after
  source := by
    rcases h.source with hget | ⟨hnone, hnew⟩
    · refine .inl ⟨current, hget, ?_, ?_, .inl ?_⟩ <;> rw [h.row]
    · refine .inr ⟨hnone, ?_⟩
      rw [h.row, hnew]
      rfl

/-- A finish that its lease allows is about the row that was claimed, so the message it speaks of is
the one of the row. -/
theorem Behind.finished {finish : WorkFinish} {current row : StoredOutboundDeliveryWork}
    (h : Behind works work) (hfinished : Finished works works' finish current row)
    (hid : finish.workId = work.workId) (hrevision : finish.expectedRevision = work.revision) :
    current = work := by
  obtain ⟨row', hget, -, -, -, hsame⟩ := h.row
  have hsource := hfinished.source
  rw [hid, hget] at hsource
  cases hsource
  refine hsame ?_
  rw [(ownedRow_ok hfinished.owned).2.1, hrevision]

end

/-! ## a step of the processor -/

section
variable {P F R : Type} [DecidableEq P] [DecidableEq F] [F64 F]

theorem Ending.advance {t t' : OutboundTables P F R} {work : StoredOutboundDeliveryWork}
    {finishedAt : Int} {answer : Delivery DeliveryOutcome} {dead : MessageId → Prop}
    (h : Ending t t' work finishedAt answer) (hbehind : Behind t.works work)
    (hanswer : ∀ m, Unsent m answer → dead m) : ∃ row, Advance t.works t'.works dead row := by
  cases h with
  | @retried r row hretry hwork hstates hopen hadvance =>
    obtain ⟨current, hfinished, -, hgeneration, -⟩ := retryOutboundDeliveryWork_ok hretry
    have hcurrent := hbehind.finished hfinished hwork.1 hwork.2.1
    have hget : t.works.get row.workId = some current := by
      rw [hfinished.workId]
      exact hfinished.source
    refine ⟨row, hfinished.after,
      .inl ⟨current, hget, hfinished.subject, hfinished.revision, ?_⟩⟩
    by_cases hnext : r.advanceGeneration = true
    · have hdead := hanswer _ (hadvance hnext)
      rw [hbehind.message, ← hcurrent] at hdead
      rw [if_pos hnext] at hgeneration
      exact .inr ⟨hgeneration, hdead⟩
    · rw [if_neg hnext, Nat.add_zero] at hgeneration
      exact .inl hgeneration
  | @completed k row hcomplete hwork hend =>
    obtain ⟨current, hfinished, -, hgeneration, -⟩ := completeOutboundDeliveryWork_ok hcomplete
    have hget : t.works.get row.workId = some current := by
      rw [hfinished.workId]
      exact hfinished.source
    exact ⟨row, hfinished.after,
      .inl ⟨current, hget, hfinished.subject, hfinished.revision, .inl hgeneration⟩⟩

/-- the tables and the claims of a processor -/
def Processor.Generational (s : Processor P F R) (dead known : MessageId → Prop) : Prop :=
  Generations s.tables.works s.claims dead known

variable (codec : PayloadCodec P F) (runStore : RunStore R)

/-- A call of the processor keeps the generations, when a finish says of dead messages only that they
were not written. -/
theorem Generations.processorStep {s : Processor P F R} {dead known : MessageId → Prop}
    (htracked : Tracked s) (h : s.Generational dead known) {call : ProcessorCall P F R}
    (hanswer : ∀ config i answer now m, call = .finish config i answer now → Unsent m answer →
      dead m) : (processorStep codec runStore s call).Generational dead known := by
  cases call with
  | claim config now =>
    simp only [Core.processorStep]
    split
    · rename_i claimed t hclaim
      obtain ⟨-, ⟨rfl, rfl⟩ | ⟨held, rfl, ⟨claim, current, -, hleased⟩, -⟩⟩ := claimDelivery_ok hclaim
      · show Generations s.tables.works (s.claims ++ []) dead known
        rw [List.append_nil]
        exact h
      · have hget : t.works.get held.work.workId = some held.work := by
          rw [hleased.after, if_pos rfl]
        exact (Generations.advance h (Leased.advance hleased)).claimed hget hleased.message
    · exact h
  | finish config i answer now =>
    simp only [Core.processorStep]
    cases hfinish : finishClaim codec runStore config s i answer now with
    | error e => exact h
    | ok t' =>
      obtain ⟨claimed, hclaimed, -, hending, -⟩ := finishClaim_ok codec runStore htracked hfinish
      have hbehind := Generations.claims h claimed (List.mem_of_getElem? hclaimed)
      obtain ⟨row, hadvance⟩ := hending.advance hbehind
        (fun m hm => hanswer config i answer now m rfl hm)
      exact Generations.advance h hadvance
  | command row state =>
    simp only [Core.processorStep]
    cases hinsert : insertCommand s.tables row state with
    | error e => exact h
    | ok t' =>
      show Generations t'.works s.claims dead known
      rw [(insertCommand_ok hinsert).1]
      exact h
  | evidence c evidence =>
    simp only [Core.processorStep]
    cases hevidence : applyEvidence s.tables c evidence with
    | error e => exact h
    | ok t' =>
      show Generations t'.works s.claims dead known
      rw [(applyEvidence_ok hevidence).1]
      exact h
  | others plans events runs => exact h

/-! ## delivered work -/

variable (tables : CommandTables P F) (runs : R) (calls : List (ProcessorCall P F R))

/-- the state in front of the `k`-th call -/
def processorAt (k : Nat) : Processor P F R :=
  before (processorStep codec runStore) (freshProcessor tables runs) calls k

theorem processorAt_tracked (k : Nat) : Tracked (processorAt codec runStore tables runs calls k) :=
  before_invariant _ _ calls (freshProcessor_tracked tables runs)
    (fun _ call h => h.step codec runStore call) k

theorem processorAt_behind (k : Nat) {claimed : ClaimedOutboundDelivery F}
    (hmem : claimed ∈ (processorAt codec runStore tables runs calls k).claims) :
    Behind (processorAt codec runStore tables runs calls k).tables.works claimed.work := by
  have hinvariant : Tracked (processorAt codec runStore tables runs calls k) ∧
      (processorAt codec runStore tables runs calls k).Generational (fun _ => True) fun _ => False := by
    refine before_invariant (P := fun s : Processor P F R =>
      Tracked s ∧ s.Generational (fun _ => True) fun _ => False) _ _ calls ?_ ?_ k
    · exact ⟨freshProcessor_tracked tables runs, fun _ _ h => (by cases h),
        fun _ _ _ h => (by cases h), fun _ h => absurd h List.not_mem_nil, fun _ h => h.elim⟩
    · exact fun _ call h => ⟨h.1.step codec runStore call,
        Generations.processorStep codec runStore h.1 h.2 fun _ _ _ _ _ _ _ => trivial⟩
  exact hinvariant.2.claims claimed hmem

/-- **Delivered work of a command**, in every state of every run -/
structure DeliveredWork : Prop where
  /-- the command has left CREATED, unless the work was ended by a permanent rejection -/
  left : ∀ k id row c, (processorAt codec runStore tables runs calls k).tables.works.get id = some row →
    row.subject = .executionCommand c → row.status = .delivered →
    row.lastOutcome ≠ some .permanentRejection →
    LeftCreated (processorAt codec runStore tables runs calls k).tables.states c
  /-- and that end is recorded by a finish whose delivery refused the message of the row for good: its
  identity did not match, or the transport of the peer rejected it; no command state changes -/
  refused : ∀ k call id row c, calls[k]? = some call →
    (processorAt codec runStore tables runs calls (k + 1)).tables.works.get id = some row →
    (processorAt codec runStore tables runs calls k).tables.works.get id ≠ some row →
    row.subject = .executionCommand c → row.status = .delivered →
    row.lastOutcome = some .permanentRejection →
    ∃ config claim answer now claimed, call = .finish config claim answer now ∧
      (processorAt codec runStore tables runs calls k).claims[claim]? = some claimed ∧
      Refused claimed.work.messageId answer ∧ row.subject = claimed.work.subject ∧
      row.messageId = claimed.work.messageId ∧
      (processorAt codec runStore tables runs calls (k + 1)).tables.states =
        (processorAt codec runStore tables runs calls k).tables.states

theorem Ending.refused {t t' : OutboundTables P F R} {work : StoredOutboundDeliveryWork}
    {finishedAt : Int} {answer : Delivery DeliveryOutcome}
    (h : Ending t t' work finishedAt answer) (hbehind : Behind t.works work) {id : String}
    {row : StoredOutboundDeliveryWork} {c : CommandId} (hrow : t'.works.get id = some row)
    (hold : t.works.get id ≠ some row) (hc : row.subject = .executionCommand c)
    (hdelivered : row.status = .delivered) (hpermanent : row.lastOutcome = some .permanentRejection) :
    Refused work.messageId answer ∧ row.subject = work.subject ∧ row.messageId = work.messageId ∧
      t'.states = t.states := by
  cases h with
  | retried hretry =>
    obtain ⟨current, hfinished, hpending, -⟩ := retryOutboundDeliveryWork_ok hretry
    rw [hfinished.after] at hrow
    split at hrow
    · cases hrow
      rw [hpending] at hdelivered
      cases hdelivered
    · exact absurd hrow hold
  | @completed k _ hcomplete hwork hend =>
    obtain ⟨current, hfinished, -, hgeneration, houtcome, -⟩ :=
      completeOutboundDeliveryWork_ok hcomplete
    rw [hfinished.after] at hrow
    split at hrow
    · cases hrow
      obtain rfl := hbehind.finished hfinished hwork.1 hwork.2.1
      have hmessage : row.messageId = current.messageId := by
        rw [hfinished.message, hfinished.subject, hgeneration, ← hbehind.message]
      have hsubject := hfinished.subject.symm.trans hc
      have hend' : k.outcome = .permanentRejection := by
        rw [houtcome] at hpermanent
        exact Option.some.inj hpermanent
      cases hend with
      | gone _ hsuperseded =>
        rw [hend'] at hsuperseded
        cases hsuperseded
      | refused hstates _ hrefused =>
        exact ⟨hrefused (by rw [hsubject]; rfl), hfinished.subject, hmessage, hstates⟩
      | run _ hrun =>
        obtain ⟨r, hr⟩ := hrun
        rw [hsubject] at hr
        cases hr
      | moved _ _ _ _ _ hnot => exact absurd hend' hnot
    · exact absurd hrow hold

theorem delivered_work : DeliveredWork codec runStore tables runs calls where
  left := fun k id row c hrow hc hdelivered hnot =>
    ((processorAt_tracked codec runStore tables runs calls k).rows id row hrow).ended c hc hdelivered
      hnot
  refused := by
    intro k call id row c hcall hrow hold hc hdelivered hpermanent
    have h := processorAt_tracked codec runStore tables runs calls k
    have hafter : processorAt codec runStore tables runs calls (k + 1) =
        processorStep codec runStore (processorAt codec runStore tables runs calls k) call :=
      before_succ _ _ hcall
    rw [hafter] at hrow ⊢
    cases processorStep_change codec runStore h call with
    | same hworks =>
      rw [hworks] at hrow
      exact absurd hrow hold
    | leased hclaim =>
      obtain ⟨⟨claim, current, -, hleased⟩, -⟩ := hclaim
      rw [hleased.after] at hrow
      split at hrow
      · cases hrow
        rw [hleased.row] at hdelivered
        cases hdelivered
      · exact absurd hrow hold
    | @finished config claim answer now claimed hclaimed htracked hending =>
      exact ⟨config, claim, answer, now, claimed, rfl, hclaimed,
        hending.refused (processorAt_behind codec runStore tables runs calls k
          (List.mem_of_getElem? hclaimed)) hrow hold hc hdelivered hpermanent⟩

end

/-! ## a refused identity

A command to cancel an order, whose session turns out to belong to another account. -/

def cancelCommand : ExecutionCommand ℚ :=
  { sampleCommand with planId := none, legId := none, action := .cancel, lots := none }

def cancelState : ExecutionCommandState := { sampleState with planId := none, legId := none }

def emptyPlans : Tables String ℚ := ⟨[], [], fun _ => .ok none, fun _ => .ok none, .nil, .nil⟩

/-- no reconciliation run, and none may be created -/
def noRuns : RunStore Unit := ⟨fun _ _ => .ok none, fun _ => [], fun _ _ => .error .database⟩

def workerConfig : DurableOutboundConfig := ⟨"worker", 1000, 10, 100⟩

def emptyCommands : CommandTables String ℚ := ⟨.empty, .empty, emptyPlans, []⟩

def mismatchCalls : List (ProcessorCall String ℚ Unit) :=
  [.command ⟨⟨cancelCommand, 10⟩, "risk"⟩ cancelState, .claim workerConfig 20,
   .finish workerConfig 0 (.ok (.rejected
     { attemptId := "attempt:msg:execution.command:cmd:v1"
       messageId := "msg:execution.command:cmd:v1"
       sessionId := some "session"
       rejectedAt := 21
       reason := .identityMismatch "account_id" })) 22]

/-- the work is DELIVERED and the command is CREATED: delivered work does not mean that the command
has left CREATED -/
theorem identity_mismatch_leaves_created :
    ¬ ∀ (calls : List (ProcessorCall String ℚ Unit)) (k : Nat) (id : String)
        (row : StoredOutboundDeliveryWork) (c : CommandId),
      (processorAt goldCodec noRuns emptyCommands () calls k).tables.works.get id = some row →
      row.subject = .executionCommand c → row.status = .delivered →
      LeftCreated (processorAt goldCodec noRuns emptyCommands () calls k).tables.states c := by
  intro h
  have hrow : ((processorAt goldCodec noRuns emptyCommands () mismatchCalls 3).tables.works.get
      "execution.command:cmd").map (fun row => (row.subject, row.status)) =
        some (.executionCommand "cmd", .delivered) := by decide +kernel
  obtain ⟨row, hget, hends⟩ := Option.map_eq_some_iff.mp hrow
  obtain ⟨state, hstate, hleft⟩ := h _ _ _ _ _ hget (congrArg Prod.fst hends)
    (congrArg Prod.snd hends)
  have hcreated : ((processorAt goldCodec noRuns emptyCommands () mismatchCalls 3).tables.states.get
      "cmd").map ExecutionCommandState.status = some .created := by decide +kernel
  rw [hstate] at hcreated
  exact hleft (Option.some.inj hcreated)

end Sinan.Core
