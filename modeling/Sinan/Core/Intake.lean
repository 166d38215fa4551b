import Sinan.Snapshot.Pending

/-!
# The intake of intents

A client submits an intent and, when it hears no answer, submits it again.  The intake holds the times
of the intent against the clock before it looks into the store, so a second submission is answered
from the store only as long as the intent is still fresh; in any case it writes nothing.
-/

set_option linter.unusedSectionVars false

namespace Sinan.Core

open Lib Store Snapshot

/-- what the intake reads of the policy -/
structure TradingCoreTimePolicy where
  maxDecisionTimeSkewMs : Int
  maxDecisionIntentAgeMs : Int
  deriving DecidableEq

inductive ControlPlanePortError where
  | conflict (code : ErrorCode) (message : String)
  | unprocessable (code : ErrorCode) (message : String)
  | unavailable (code : ErrorCode) (message : String)
  | internal
  deriving DecidableEq

structure SubmitTradeIntentCommand (F : Type) where
  accountScope : Events.AuthorizedAccountScope
  intent : TradeIntent F
  deriving DecidableEq

/-- what the intent has led to -/
structure TradeIntentStateRef where
  planId : Option PlanId
  riskId : Option RiskId
  deriving DecidableEq

structure TradeIntentIntakeRecord where
  acceptedAt : Int
  stateRef : Option TradeIntentStateRef
  deriving DecidableEq

inductive TradeIntentIntakeOutcome where
  | inserted (record : TradeIntentIntakeRecord)
  | duplicate (record : TradeIntentIntakeRecord)
  deriving DecidableEq

def mapQueryStoreError : StoreError → ControlPlanePortError
  | .database => .unavailable .stateStoreUnavailable "State Store is unavailable"
  | _ => .internal

def mapIntakeStoreError : StoreError → ControlPlanePortError
  | .identityConflict _ _ => .conflict .idempotencyKeyConflict
      "TradeIntent identity or idempotency key conflicts with durable state"
  | e => mapQueryStoreError e

section
variable {P F : Type} [DecidableEq P] [DecidableEq F] [F64 F]

/-! ## the checks -/

def invalidActionShape (intent : TradeIntent F) : Bool :=
  match intent.action with
  | .buy | .sell =>
    F64.le intent.proposedRiskPct F64.zero || F64.lt (F64.ofInt 100) intent.proposedRiskPct
  | .hold =>
    !F64.eq intent.proposedRiskPct F64.zero || intent.proposedSl.isSome ||
    intent.proposedTp.isSome || intent.proposedLegs.isSome
  | .close => F64.lt intent.proposedRiskPct F64.zero

/-- what the last check of the intake refuses -/
def malformedIntent (intent : TradeIntent F) : Bool :=
  intent.intentId.isEmpty || intent.decisionId.isEmpty || intent.strategyId.isEmpty ||
  intent.correlationId.isEmpty || intent.idempotencyKey.isEmpty || intent.accountId.isEmpty ||
  intent.symbol.isEmpty || intent.timeframe.isEmpty || blank intent.reason ||
  !F64.isFinite intent.confidence ||
  !(F64.le F64.zero intent.confidence && F64.le intent.confidence (F64.ofInt 1)) ||
  !F64.isFinite intent.proposedRiskPct || invalidActionShape intent

def timeInvalid : ControlPlanePortError :=
  .unprocessable .tradeIntentTimeInvalid
    "TradeIntent timestamps are outside the server-time contract"

def expired : ControlPlanePortError :=
  .unprocessable .tradeIntentExpired "TradeIntent is outside its admissible time window"

def validateIntentForIntake (policy : TradingCoreTimePolicy) (now : Int) (intent : TradeIntent F) :
    Except ControlPlanePortError Unit := do
  reject (now < 0 ∨ intent.decisionTimestamp < 0 ∨ intent.requestedAt < 0 ∨
      intent.decisionTimestamp > intent.requestedAt ∨
      intent.signalExpiresAt ≤ intent.requestedAt ∨
      intent.requestedAt > saturatingAdd now policy.maxDecisionTimeSkewMs ∨
      saturatingSub now intent.requestedAt > policy.maxDecisionIntentAgeMs)
    timeInvalid
  reject (intent.signalExpiresAt ≤ now) expired
  reject (malformedIntent intent = true)
    (.unprocessable .riskInputInvalid "TradeIntent failed durable intake validation")

/-! ## the submission -/

/-- `insert_trade_intent_on` with the record it returns -/
def storeTradeIntent (new : NewTradeIntent F) : Statement P F (WriteOutcome (IntentRow F)) := do
  Script.query fun _ => checkDecisionTimestamp new.intent
  Script.write fun t =>
    match t.intents.insert new.row with
    | some intents => .ok (.inserted new.row, { t with intents })
    | none =>
      match intentConflicts t new.intent with
      | [existing] =>
        if existing.intent = new.intent then .ok (.duplicate existing, t)
        else .error (intentConflict [existing] new.intent)
      | existing => .error (intentConflict existing new.intent)

/-- nothing while there is neither a risk result nor a plan -/
def stateRef (workflow : TradeIntentWorkflowStatus P F) : Option TradeIntentStateRef :=
  let riskId := workflow.latestRiskResult.map RiskResult.riskId
  let planId := workflow.plan.map fun plan => plan.plan.definition.planId
  if riskId.isSome || planId.isSome then some { planId, riskId } else none

/-- `submit_trade_intent` at the server time `now` -/
def submitTradeIntent (codec : PayloadCodec P F) (policy : TradingCoreTimePolicy)
    (command : SubmitTradeIntentCommand F) (now : Int) :
    Script (WorkflowTables P F) ControlPlanePortError TradeIntentIntakeOutcome := do
  Script.query fun _ =>
    reject (command.accountScope.contains command.intent.accountId = false) .internal
  Script.query fun _ => validateIntentForIntake policy now command.intent
  -- the statement in a transaction of its own
  let outcome ← Script.mapError mapIntakeStoreError
    (Script.savepoint (storeTradeIntent ⟨command.intent, .accepted, now⟩))
  match outcome with
  | .inserted stored => return .inserted ⟨stored.createdAt, none⟩
  | .duplicate stored =>
    let workflow ← Script.query fun t =>
      (loadTradeIntentWorkflowStatus codec t command.accountScope stored.intent.intentId).mapError
        mapQueryStoreError
    return .duplicate ⟨stored.createdAt, workflow.bind stateRef⟩

/-! ## one submission -/

section
variable {codec : PayloadCodec P F} {policy : TradingCoreTimePolicy} {now now' : Int}
  {command : SubmitTradeIntentCommand F} {t t' : WorkflowTables P F} {row : IntentRow F}

theorem storeTradeIntent_statement (new : NewTradeIntent F) (t : WorkflowTables P F) :
    insertTradeIntent new t =
      ((storeTradeIntent new t).1.map WriteOutcome.wasInserted, (storeTradeIntent new t).2) := by
  rcases hcheck : checkDecisionTimestamp new.intent with e | u
  · unfold insertTradeIntent storeTradeIntent
    rw [Script.query_failure (s := t) hcheck, Script.query_failure (s := t) hcheck]
    rfl
  · unfold insertTradeIntent storeTradeIntent
    rw [Script.query_success (s := t) hcheck, Script.query_success (s := t) hcheck]
    unfold Script.write
    dsimp only
    cases t.intents.insert new.row with
    | some intents => rfl
    | none =>
      dsimp only
      rcases intentConflicts t new.intent with _ | ⟨existing, _ | ⟨other, rest⟩⟩
      · rfl
      · by_cases hsame : existing.intent = new.intent
        · simp only [if_pos hsame]
          rfl
        · simp only [if_neg hsame]
          rfl
      · rfl

theorem storeTradeIntent_inserted {new : NewTradeIntent F}
    (h : storeTradeIntent new t = (.ok (.inserted row), t')) :
    row = new.row ∧ t'.intents.get row.intent.intentId = some row := by
  simp only [storeTradeIntent, Script.bind_run, Script.query_run] at h
  obtain ⟨_, _, ⟨-, hsame⟩, hwrite⟩ := h
  rw [hsame, Script.write_run] at hwrite
  cases hinsert : t.intents.insert new.row with
  | some intents =>
    simp only [hinsert] at hwrite
    cases hwrite
    have hget := Table.get_insert hinsert new.row.intent.intentId
    rw [if_pos rfl] at hget
    exact ⟨rfl, hget⟩
  | none =>
    simp only [hinsert] at hwrite
    split at hwrite
    · split at hwrite
      · cases hwrite
      · cases hwrite
    · cases hwrite

theorem storeTradeIntent_duplicate {new : NewTradeIntent F}
    (hcheck : checkDecisionTimestamp new.intent = .ok ())
    (hrow : t.intents.get new.intent.intentId = some row) (hsame : row.intent = new.intent) :
    storeTradeIntent new t = (.ok (.duplicate row), t) := by
  have htaken : t.intents.insert new.row = none := Table.insert_taken hrow
  have hconflicts : intentConflicts t new.intent = [row] := by
    refine Table.conflicts_self (Table.get_eq_some.mp hrow).1 rfl fun other => ?_
    simp only [hsame, Bool.or_eq_true, beq_iff_eq, Option.some.injEq]
  simp only [storeTradeIntent, Script.bind_run, Script.query_run]
  refine ⟨(), t, ⟨hcheck, rfl⟩, Script.write_run.mpr ?_⟩
  simp only [htaken, hconflicts]
  exact if_pos hsame

/-- the intent of an accepted command has passed the checks and is stored at the time of the record -/
theorem submitTradeIntent_inserted {record : TradeIntentIntakeRecord}
    (h : submitTradeIntent codec policy command now t = (.ok (.inserted record), t')) :
    command.accountScope.contains command.intent.accountId = true ∧
      validateIntentForIntake policy now command.intent = .ok () ∧
      insertTradeIntent ⟨command.intent, .accepted, now⟩ t = (.ok true, t') ∧
      ∃ row, t'.intents.get command.intent.intentId = some row ∧ row.intent = command.intent ∧
        row.createdAt = record.acceptedAt := by
  simp only [submitTradeIntent, Script.bind_run, Script.query_run, Script.mapError_run,
    Script.savepoint_run] at h
  obtain ⟨_, _, ⟨hscope, rfl⟩, _, _, ⟨hvalid, rfl⟩, outcome, u, hstore, h⟩ := h
  cases outcome with
  | duplicate stored =>
    simp only [Script.bind_run, Script.query_run, Script.pure_run] at h
    obtain ⟨_, _, -, hfalse, -⟩ := h
    cases hfalse
  | inserted stored =>
    obtain ⟨hrecord, rfl⟩ := Script.pure_run.mp h
    cases hrecord
    obtain ⟨rfl, hget⟩ := storeTradeIntent_inserted hstore
    refine ⟨Bool.eq_true_of_not_eq_false (reject_ok.mp hscope), hvalid, ?_, _, hget, rfl, rfl⟩
    rw [storeTradeIntent_statement, hstore]
    rfl

theorem submitTradeIntent_refused {e : ControlPlanePortError}
    (hscope : command.accountScope.contains command.intent.accountId = true)
    (hrefused : validateIntentForIntake policy now command.intent = .error e) :
    submitTradeIntent codec policy command now t = (.error e, t) := by
  have hinside : reject (command.accountScope.contains command.intent.accountId = false)
      ControlPlanePortError.internal = .ok () := by
    rw [reject_ok, hscope]
    exact Bool.noConfusion
  unfold submitTradeIntent
  rw [Script.query_success (s := t) hinside]
  exact Script.query_failure (s := t) hrefused

theorem submitTradeIntent_duplicate {workflow : TradeIntentWorkflowStatus P F}
    (hscope : command.accountScope.contains command.intent.accountId = true)
    (hvalid : validateIntentForIntake policy now command.intent = .ok ())
    (hrow : t.intents.get command.intent.intentId = some row) (hsame : row.intent = command.intent)
    (hstatus : loadTradeIntentWorkflowStatus codec t command.accountScope command.intent.intentId =
      .ok (some workflow)) :
    submitTradeIntent codec policy command now t =
      (.ok (.duplicate ⟨row.createdAt, stateRef workflow⟩), t) := by
  have hcheck : checkDecisionTimestamp command.intent = .ok () := by
    simp only [validateIntentForIntake, bind_ok, exists_unit, reject_ok, not_or] at hvalid
    obtain ⟨⟨-, hdecision, -, hordered, -⟩, -⟩ := hvalid
    exact reject_ok.mpr (not_or.mpr ⟨hdecision, hordered⟩)
  have hstore : storeTradeIntent ⟨command.intent, .accepted, now⟩ t = (.ok (.duplicate row), t) :=
    storeTradeIntent_duplicate hcheck hrow hsame
  simp only [submitTradeIntent, Script.bind_run, Script.query_run, Script.mapError_run,
    Script.savepoint_run]
  refine ⟨(), t, ⟨reject_ok.mpr ?_, rfl⟩, (), t, ⟨hvalid, rfl⟩, .duplicate row, t, hstore, ?_⟩
  · rw [hscope]
    exact fun h => by cases h
  · simp only [Script.bind_run, Script.query_run, Script.pure_run, hsame, mapError_ok]
    exact ⟨some workflow, t, ⟨hstatus, rfl⟩, rfl, rfl⟩

theorem validateIntentForIntake_later {intent : TradeIntent F}
    (h : validateIntentForIntake policy now intent = .ok ()) (hlater : now ≤ now') :
    validateIntentForIntake policy now' intent =
      if policy.maxDecisionIntentAgeMs < saturatingSub now' intent.requestedAt then
        .error timeInvalid
      else if intent.signalExpiresAt ≤ now' then .error expired
      else .ok () := by
  simp only [validateIntentForIntake, bind_ok, exists_unit, reject_ok, not_or, not_lt, not_le,
    gt_iff_lt] at h
  obtain ⟨⟨hnow, hdecision, hrequested, hordered, hexpires, hskew, -⟩, -, hshape⟩ := h
  have hskew' := hskew.trans (saturate_mono (Int.add_le_add_right hlater _))
  have htimes : (now' < 0 ∨ intent.decisionTimestamp < 0 ∨ intent.requestedAt < 0 ∨
      intent.decisionTimestamp > intent.requestedAt ∨
      intent.signalExpiresAt ≤ intent.requestedAt ∨
      intent.requestedAt > saturatingAdd now' policy.maxDecisionTimeSkewMs ∨
      saturatingSub now' intent.requestedAt > policy.maxDecisionIntentAgeMs) ↔
      policy.maxDecisionIntentAgeMs < saturatingSub now' intent.requestedAt := by
    constructor
    · rintro (h | h | h | h | h | h | h)
      · omega
      · omega
      · omega
      · omega
      · omega
      · exact absurd hskew' (not_le.mpr h)
      · exact h
    · exact fun h => .inr (.inr (.inr (.inr (.inr (.inr h)))))
  unfold validateIntentForIntake
  simp only [reject, htimes]
  by_cases hold : policy.maxDecisionIntentAgeMs < saturatingSub now' intent.requestedAt
  · simp only [if_pos hold]
    rfl
  · by_cases hpast : intent.signalExpiresAt ≤ now'
    · simp only [if_neg hold, if_pos hpast]
      rfl
    · simp only [if_neg hold, if_neg hpast, if_neg hshape]
      rfl

end

/-! ## the submission after others -/

section
variable {D E J : Type} [DecidableEq D] [DecidableEq E] [DecidableEq J] {w : Writers P F D E J}
  {policy : TradingCoreTimePolicy} {command : SubmitTradeIntentCommand F} {now now' : Int}
  {t₀ t₂ : RiskTables P F D J} {t₁ : WorkflowTables P F}

/-- A command whose intent was inserted is submitted again, after any writes.  The store is left as it
is.  As long as the intent is neither too old nor expired, the answer is the duplicate with the time of
the first acceptance; afterwards it is the refusal of a fresh command with these times. -/
theorem resubmission_answer {before after : List (RiskCall F J)} {record : TradeIntentIntakeRecord}
    (hbefore : riskRun w (.empty P F D J) before = .ok t₀)
    (hsubmit : submitTradeIntent w.journal.toPayloadCodec policy command now t₀.workflows =
      (.ok (.inserted record), t₁))
    (hafter : riskRun w { t₀ with workflows := t₁ } after = .ok t₂) (hlater : now ≤ now') :
    ∃ workflow, loadTradeIntentWorkflowStatus w.journal.toPayloadCodec t₂.workflows
        command.accountScope command.intent.intentId = .ok (some workflow) ∧
      submitTradeIntent w.journal.toPayloadCodec policy command now' t₂.workflows =
        (if policy.maxDecisionIntentAgeMs < saturatingSub now' command.intent.requestedAt then
            .error timeInvalid
          else if command.intent.signalExpiresAt ≤ now' then .error expired
          else .ok (.duplicate ⟨record.acceptedAt, stateRef workflow⟩), t₂.workflows) := by
  obtain ⟨hscope, hvalid, hinsert, row, hrow, hsame, haccepted⟩ := submitTradeIntent_inserted hsubmit
  -- every row that the status reads is legible after all writes
  have hlegible : Legible w.journal.toPayloadCodec t₂.workflows := by
    have hstatements := legible_statements w.journal
    have hfirst : Legible w.journal.toPayloadCodec t₀.workflows :=
      riskRun_workflows hstatements hbefore Legible.empty
    exact riskRun_workflows hstatements hafter (insertTradeIntent_legible _ _ _ _ hinsert hfirst)
  have hkept : RowsKept t₁ t₂.workflows := riskRun_workflows (rowsKept_statements w.journal) hafter
  have hrow₂ : t₂.workflows.intents.get command.intent.intentId = some row :=
    hkept.parents.intent _ _ hrow
  obtain ⟨workflow, hstatus⟩ := hlegible.status hrow₂ (by rw [hsame]; exact hscope)
  have hchecks := validateIntentForIntake_later hvalid hlater
  refine ⟨workflow, hstatus, ?_⟩
  by_cases hold : policy.maxDecisionIntentAgeMs < saturatingSub now' command.intent.requestedAt
  · rw [if_pos hold] at hchecks ⊢
    exact submitTradeIntent_refused hscope hchecks
  · rw [if_neg hold] at hchecks ⊢
    by_cases hpast : command.intent.signalExpiresAt ≤ now'
    · rw [if_pos hpast] at hchecks ⊢
      exact submitTradeIntent_refused hscope hchecks
    · rw [if_neg hpast] at hchecks ⊢
      rw [← haccepted]
      exact submitTradeIntent_duplicate hscope hchecks hrow₂ hsame hstatus

end

end

/-! ## the gold order, submitted twice

Between the two submissions its risk result and its plan are stored. -/

/-- the default configuration -/
def goldTimePolicy : TradingCoreTimePolicy := ⟨2000, 30000⟩

def goldSubmission : SubmitTradeIntentCommand ℚ := ⟨⟨["account-1"]⟩, Risk.goldIntent⟩

def goldSubmit (now : Int) :=
  submitTradeIntent goldCodec goldTimePolicy goldSubmission now

def noTables : RiskTables String ℚ (Projection.Document ℚ) Breaker.CircuitBreakerSnapshotV1 :=
  .empty _ _ _ _

def goldBetween : List (RiskCall ℚ Breaker.CircuitBreakerSnapshotV1) :=
  [.riskResult goldWorkflow.riskResult, .plan goldWorkflow.plan]

/-- both answers, the first at 9600 -/
def goldAnswers (now : Int) : Option (Except ControlPlanePortError TradeIntentIntakeOutcome ×
    Except ControlPlanePortError TradeIntentIntakeOutcome) :=
  let first := goldSubmit 9600 noTables.workflows
  (riskRun plainWriters { noTables with workflows := first.2 } goldBetween).toOption.map fun t =>
    (first.1, (goldSubmit now t.workflows).1)

theorem goldAnswers_run {now : Int} {first : TradeIntentIntakeOutcome}
    {second : Except ControlPlanePortError TradeIntentIntakeOutcome}
    (h : goldAnswers now = some (.ok first, second)) :
    ∃ t₁ t₂, goldSubmit 9600 noTables.workflows = (.ok first, t₁) ∧
      riskRun plainWriters { noTables with workflows := t₁ } goldBetween = .ok t₂ ∧
      (goldSubmit now t₂.workflows).1 = second := by
  obtain ⟨t₂, hrun, hresult⟩ := Option.map_eq_some_iff.mp h
  simp only [Prod.mk.injEq] at hresult
  exact ⟨_, t₂, Prod.ext hresult.1 rfl, ok_of_toOption hrun, hresult.2⟩

/-- the second answer when the intent is just fresh enough -/
theorem resubmission_answer_fresh :
    ∃ t₁ t₂, goldSubmit 9600 noTables.workflows = (.ok (.inserted ⟨9600, none⟩), t₁) ∧
      riskRun plainWriters { noTables with workflows := t₁ } goldBetween = .ok t₂ ∧
      goldSubmit 39500 t₂.workflows =
        (.ok (.duplicate ⟨9600, some ⟨some "plan-1", some "risk-1"⟩⟩), t₂.workflows) := by
  have hanswers : goldAnswers 39500 = some (.ok (.inserted ⟨9600, none⟩),
      .ok (.duplicate ⟨9600, some ⟨some "plan-1", some "risk-1"⟩⟩)) := by decide +kernel
  obtain ⟨t₁, t₂, hfirst, hrun, hsecond⟩ := goldAnswers_run hanswers
  refine ⟨t₁, t₂, hfirst, hrun, Prod.ext hsecond ?_⟩
  have hbefore : riskRun plainWriters (.empty _ _ _ _) [] = .ok noTables := rfl
  obtain ⟨workflow, -, hagain⟩ := resubmission_answer hbefore hfirst hrun
    (by decide : (9600 : Int) ≤ 39500)
  have hunchanged := congrArg Prod.snd hagain
  exact hunchanged

/-- One millisecond later the stored intent is refused as too old. -/
theorem resubmission_too_old :
    ∃ t₁ t₂, goldSubmit 9600 noTables.workflows = (.ok (.inserted ⟨9600, none⟩), t₁) ∧
      riskRun plainWriters { noTables with workflows := t₁ } goldBetween = .ok t₂ ∧
      (goldSubmit 39501 t₂.workflows).1 = .error timeInvalid ∧
      ¬ ∃ stateRef, goldSubmit 39501 t₂.workflows =
        (.ok (.duplicate ⟨9600, stateRef⟩), t₂.workflows) := by
  have hanswers : goldAnswers 39501 =
      some (.ok (.inserted ⟨9600, none⟩), .error timeInvalid) := by decide +kernel
  obtain ⟨t₁, t₂, hfirst, hrun, hsecond⟩ := goldAnswers_run hanswers
  refine ⟨t₁, t₂, hfirst, hrun, hsecond, ?_⟩
  rintro ⟨stateRef, hagain⟩
  rw [hagain] at hsecond
  cases hsecond

end Sinan.Core
