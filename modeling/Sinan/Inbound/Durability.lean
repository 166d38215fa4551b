import Sinan.Inbound.Moves

/-!
# The inbound queue over whole runs

A row in PROCESSING is the row the latest claim of its message returned, so the revision and the
lease a finish is checked against are that claim's.  From the four effects a transaction can have,
everything else follows step by step: rows stay, final rows stay as they are, revisions grow by one,
and the effects of a message are committed together with the one finish it ever gets.
-/

set_option linter.unusedSectionVars false

namespace Sinan.Inbound

open Lib Store

section
variable {P : Type} {codec : EnvelopeCodec P} {W : Type} [DecidableEq P]
variable {world world' : RecoveryWorld codec W} {call : InboundCall P W}
variable {row stored : StoredInboundAdmission P} {m : MessageId}

def DurableWorkStatus.Final (status : DurableWorkStatus) : Prop :=
  status = .handled ∨ status = .failed

instance (status : DurableWorkStatus) : Decidable status.Final :=
  inferInstanceAs (Decidable (_ ∨ _))

/-- the row stored for a message -/
def RecoveryWorld.rowOf (world : RecoveryWorld codec W) (m : MessageId) :
    Option (StoredInboundAdmission P) := world.tables.admissions.get m

/-! ## one step -/

theorem finishedRow_final (row : StoredInboundAdmission P) (finishedAt : Int)
    (error : Option String) : (finishedRow row finishedAt error).status.Final := by
  cases error with
  | none => exact .inl rfl
  | some e => exact .inr rfl

theorem Finished.step {t t' : InboundTables codec} {finish : Finish} {error : Option String}
    (h : Finished t t' finish error row) :
    t.admissions.get row.messageId = some row ∧
      t'.admissions.get row.messageId = some (finishedRow row finish.finishedAt error) ∧
      ¬ row.status.Final := by
  refine ⟨h.rewritten.found, h.rewritten.get_self, ?_⟩
  rintro (hfinal | hfinal) <;> rw [h.status] at hfinal <;> cases hfinal

theorem Finished.others {t t' : InboundTables codec} {finish : Finish} {error : Option String}
    (h : Finished t t' finish error row) (hm : row.messageId ≠ m) :
    t'.admissions.get m = t.admissions.get m := by
  rw [h.rewritten.get, if_neg hm]

/-- the row a claim or a finish returned -/
def touchedBy (world : RecoveryWorld codec W) (call : InboundCall P W) :
    Option (StoredInboundAdmission P) :=
  (claimedBy world call).or (finishedBy world call)

theorem touched_step (world : RecoveryWorld codec W) (call : InboundCall P W)
    (h : touchedBy world call = some stored) :
    ∃ row, world.rowOf stored.messageId = some row ∧
      (inboundStep world call).rowOf stored.messageId = some stored ∧
      stored.revision = row.revision + 1 ∧
      stored.toNewInboundAdmission = row.toNewInboundAdmission ∧ ¬ row.status.Final := by
  unfold touchedBy at h
  cases inboundStep_effect world call with
  | still hclaimed hfinished =>
    rw [hclaimed, hfinished] at h
    cases h
  | admitted a hclaimed hfinished =>
    rw [hclaimed, hfinished] at h
    cases h
  | claimed workerId claimedAt lease row hclaimed hfinished haccepted hsource htaken =>
    rw [hclaimed] at h
    cases h
    refine ⟨row, htaken.found, htaken.get_self, rfl, rfl, ?_⟩
    rintro (hfinal | hfinal) <;> rcases hsource.open_ with hstatus | hstatus <;>
      rw [hfinal] at hstatus <;> cases hstatus
  | finished finish error row hclaimed hfinished haccepted hcall hdone =>
    rw [hclaimed, hfinished] at h
    cases h
    obtain ⟨hfound, hwritten, hopen⟩ := hdone.step
    exact ⟨row, hfound, hwritten, rfl, rfl, hopen⟩

theorem untouched_step (world : RecoveryWorld codec W) (call : InboundCall P W)
    (hm : ∀ x, touchedBy world call = some x → x.messageId ≠ m)
    (hrow : world.rowOf m = some row) : (inboundStep world call).rowOf m = some row := by
  unfold touchedBy at hm
  unfold RecoveryWorld.rowOf at hrow ⊢
  cases inboundStep_effect world call with
  | still hclaimed hfinished haccepted hrows =>
    rw [hrows]
    exact hrow
  | admitted a hclaimed hfinished haccepted hcall hinsert =>
    exact Table.get_insert_of_some hinsert hrow
  | claimed workerId claimedAt lease old hclaimed hfinished haccepted hsource htaken =>
    rw [hclaimed] at hm
    have hne : old.messageId ≠ m := hm (claimedRow old workerId claimedAt lease) rfl
    rw [htaken.get, if_neg hne]
    exact hrow
  | finished finish error row hclaimed hfinished haccepted hcall hdone =>
    rw [hclaimed, hfinished] at hm
    have hne : row.messageId ≠ m := hm (finishedRow row finish.finishedAt error) rfl
    rw [hdone.others hne]
    exact hrow

theorem row_step (world : RecoveryWorld codec W) (call : InboundCall P W)
    (hrow : world.rowOf m = some row) :
    ∃ row', (inboundStep world call).rowOf m = some row' ∧
      row'.toNewInboundAdmission = row.toNewInboundAdmission ∧
      (row.status.Final → row' = row) := by
  by_cases hm : ∃ x, touchedBy world call = some x ∧ x.messageId = m
  · obtain ⟨x, hx, rfl⟩ := hm
    obtain ⟨old, hold, hnew, -, hidentity, hopen⟩ := touched_step world call hx
    rw [hrow] at hold
    cases hold
    exact ⟨x, hnew, hidentity, fun hfinal => absurd hfinal hopen⟩
  · refine ⟨row, untouched_step world call (fun x hx hxm => hm ⟨x, hx, hxm⟩) hrow, rfl, fun _ => rfl⟩

theorem business_step (world : RecoveryWorld codec W) (call : InboundCall P W) :
    (inboundStep world call).business = world.business ∨
    (call.Writes world.business (inboundStep world call).business ∧
      ∃ stored, finishedBy world call = some stored ∧ stored.status = .handled) := by
  cases inboundStep_effect world call with
  | still hclaimed hfinished haccepted hrows hsessions hbusiness => exact .inl hbusiness
  | admitted a hclaimed hfinished haccepted hcall hinsert hsessions hbusiness => exact .inl hbusiness
  | claimed workerId claimedAt lease old hclaimed hfinished haccepted hsource htaken hbusiness =>
    exact .inl hbusiness
  | finished finish error row hclaimed hfinished haccepted hcall hdone hbusiness =>
    rcases hbusiness with hsame | ⟨rfl, hwrites⟩
    · exact .inl hsame
    · exact .inr ⟨hwrites, _, hfinished, rfl⟩

/-! ## the latest claim -/

/-- the rows the claims of a run returned, oldest first -/
def claimLog (codec : EnvelopeCodec P) (business : W) (calls : List (InboundCall P W)) :
    List (StoredInboundAdmission P) :=
  emitted inboundStep (fun world call => (claimedBy world call).toList)
    (RecoveryWorld.initial codec business) calls

/-- the latest claim of a message in front of the `k`-th call -/
def latestClaim (codec : EnvelopeCodec P) (business : W) (calls : List (InboundCall P W)) (k : Nat)
    (m : MessageId) : Option (StoredInboundAdmission P) :=
  ((claimLog codec business (calls.take k)).filter fun claim => claim.messageId == m).getLast?

section
variable {business : W} {calls : List (InboundCall P W)} {k : Nat}

theorem latestClaim_succ (hk : calls[k]? = some call) :
    latestClaim codec business calls (k + 1) m =
      (((claimedBy (inboundAt codec business calls k) call).filter
        fun claim => claim.messageId == m).or (latestClaim codec business calls k m)) := by
  unfold latestClaim claimLog
  rw [emitted_take_succ _ _ hk, List.filter_append, List.getLast?_append]
  show (((claimedBy (inboundAt codec business calls k) call).toList.filter _).getLast?).or _ = _
  cases claimedBy (inboundAt codec business calls k) call with
  | none => rfl
  | some claim =>
    by_cases hm : (claim.messageId == m) = true
    · simp only [Option.toList_some, List.filter_cons, hm, if_true, List.filter_nil,
        List.getLast?_singleton, Option.filter_some]
    · simp only [Option.toList_some, List.filter_cons, hm, List.filter_nil, Option.filter_some]
      rfl

theorem latestClaim_past (hk : calls[k]? = none) :
    latestClaim codec business calls (k + 1) m = latestClaim codec business calls k m := by
  unfold latestClaim claimLog
  rw [emitted_take_past _ _ hk]

theorem inboundAt_succ (hk : calls[k]? = some call) :
    inboundAt codec business calls (k + 1) =
      inboundStep (inboundAt codec business calls k) call :=
  before_succ inboundStep _ hk

theorem processing_claimed (hrow : (inboundAt codec business calls k).rowOf m = some row)
    (hstatus : row.status = .processing) : latestClaim codec business calls k m = some row := by
  induction k generalizing row with
  | zero => cases hrow
  | succ k ih =>
    cases hk : calls[k]? with
    | none =>
      have hsame : inboundAt codec business calls (k + 1) = inboundAt codec business calls k :=
        before_past inboundStep _ hk
      rw [latestClaim_past hk]
      rw [hsame] at hrow
      exact ih hrow hstatus
    | some call =>
      rw [inboundAt_succ hk] at hrow
      rw [latestClaim_succ hk]
      unfold RecoveryWorld.rowOf at hrow ih
      cases inboundStep_effect (inboundAt codec business calls k) call with
      | still hclaimed hfinished haccepted hrows =>
        rw [hclaimed]
        rw [hrows] at hrow
        exact ih hrow hstatus
      | admitted a hclaimed hfinished haccepted hcall hinsert =>
        rw [hclaimed]
        rw [Table.get_insert hinsert, pendingRow_messageId] at hrow
        by_cases hm : a.messageId = m
        · rw [if_pos hm] at hrow
          cases hrow
          cases hstatus
        · rw [if_neg hm] at hrow
          exact ih hrow hstatus
      | claimed workerId claimedAt lease old hclaimed hfinished haccepted hsource htaken =>
        rw [hclaimed, Option.filter_some, claimedRow_messageId]
        rw [htaken.get] at hrow
        by_cases hm : old.messageId = m
        · rw [if_pos hm] at hrow
          cases hrow
          rw [if_pos (beq_iff_eq.mpr hm)]
          rfl
        · rw [if_neg hm] at hrow
          rw [if_neg (fun h => hm (beq_iff_eq.mp h))]
          exact ih hrow hstatus
      | finished finish error old hclaimed hfinished haccepted hcall hdone =>
        rw [hclaimed]
        by_cases hm : old.messageId = m
        · obtain ⟨-, hnew, -⟩ := hdone.step
          rw [hm, hrow] at hnew
          cases hnew
          rcases finishedRow_final old finish.finishedAt error with hfinal | hfinal <;>
            rw [hstatus] at hfinal <;> cases hfinal
        · rw [hdone.others hm] at hrow
          exact ih hrow hstatus

/-! ## rows over a run -/

/-- rows stay, as they were admitted, and final rows stay as they are -/
def RowsStay (world later : RecoveryWorld codec W) : Prop :=
  ∀ m row, world.rowOf m = some row → ∃ row', later.rowOf m = some row' ∧
    row'.toNewInboundAdmission = row.toNewInboundAdmission ∧ (row.status.Final → row' = row)

theorem RowsStay.refl (world : RecoveryWorld codec W) : RowsStay world world :=
  fun _ row hrow => ⟨row, hrow, rfl, fun _ => rfl⟩

theorem RowsStay.trans {w₁ w₂ w₃ : RecoveryWorld codec W} (h₁ : RowsStay w₁ w₂)
    (h₂ : RowsStay w₂ w₃) : RowsStay w₁ w₃ := by
  intro m row hrow
  obtain ⟨row₂, hrow₂, hidentity₂, hfinal₂⟩ := h₁ m row hrow
  obtain ⟨row₃, hrow₃, hidentity₃, hfinal₃⟩ := h₂ m row₂ hrow₂
  refine ⟨row₃, hrow₃, hidentity₃.trans hidentity₂, fun hfinal => ?_⟩
  have hsame := hfinal₂ hfinal
  subst hsame
  exact hfinal₃ hfinal

theorem rows_stay {i : Nat} (hik : i ≤ k) :
    RowsStay (inboundAt codec business calls i) (inboundAt codec business calls k) :=
  before_related inboundStep RowsStay.refl RowsStay.trans _ calls hik
    fun _ call _ _ m _ hrow => row_step (m := m) _ call hrow

theorem finishedBy_final (h : finishedBy world call = some stored) : stored.status.Final := by
  cases inboundStep_effect world call with
  | still hclaimed hfinished =>
    rw [hfinished] at h
    cases h
  | admitted a hclaimed hfinished =>
    rw [hfinished] at h
    cases h
  | claimed workerId claimedAt lease old hclaimed hfinished =>
    rw [hfinished] at h
    cases h
  | finished finish error row hclaimed hfinished =>
    rw [hfinished] at h
    cases h
    exact finishedRow_final row finish.finishedAt error

theorem finishedBy_touched (h : finishedBy world call = some stored) :
    touchedBy world call = some stored := by
  unfold touchedBy
  cases inboundStep_effect world call with
  | still hclaimed => rw [hclaimed, h]; rfl
  | admitted a hclaimed => rw [hclaimed, h]; rfl
  | claimed workerId claimedAt lease old hclaimed hfinished =>
    rw [hfinished] at h
    cases h
  | finished finish error row hclaimed => rw [hclaimed, h]; rfl

/-- the call finishes the message, with the effects of its handler if it is a handler's -/
def finishes (m : MessageId) (world : RecoveryWorld codec W) (call : InboundCall P W) : Bool :=
  (finishedBy world call).any fun stored => stored.messageId == m

theorem finishes_once (m : MessageId) :
    countAlong inboundStep (finishes m) (RecoveryWorld.initial codec business) calls ≤ 1 := by
  have h := countAlong_le inboundStep (p := finishes m) (P := fun _ => True)
    (fun world : RecoveryWorld codec W =>
      if (world.rowOf m).any (fun row => decide row.status.Final) then 1 else 0) 1
    (fun _ _ _ => trivial) ?_ ?_ ?_ (RecoveryWorld.initial codec business) calls trivial
  · exact le_trans (Nat.le_add_left _ _) h
  · intro world call _
    by_cases hfinal : (world.rowOf m).any (fun row => decide row.status.Final) = true
    · obtain ⟨row, hrow, hstatus⟩ := (Option.any_eq_true _ _).mp hfinal
      obtain ⟨row', hrow', -, hsame⟩ := row_step world call hrow
      rw [hsame (of_decide_eq_true hstatus)] at hrow'
      rw [if_pos hfinal, hrow', if_pos (by exact hstatus)]
    · rw [if_neg hfinal]
      exact Nat.zero_le _
  · intro world call _ hcall
    obtain ⟨stored, hstored, hm⟩ := (Option.any_eq_true _ _).mp hcall
    obtain ⟨row, hrow, hnew, -, -, hopen⟩ := touched_step world call (finishedBy_touched hstored)
    have hfinal := finishedBy_final hstored
    rw [beq_iff_eq.mp hm] at hrow hnew
    rw [hrow, hnew, Option.any_some, Option.any_some, decide_eq_false hopen, decide_eq_true hfinal]
    exact Nat.zero_lt_one
  · intro world
    split
    · exact Nat.le_refl 1
    · exact Nat.zero_le 1

/-! ## the whole run -/

/-- what the queue promises over one run of transactions from an empty store -/
structure Durable (codec : EnvelopeCodec P) (business : W) (calls : List (InboundCall P W)) :
    Prop where
  /-- a message answered Accepted is in the table from then on, as it was admitted -/
  accepted : ∀ i k a row t', calls[i]? = some (.admitInbound a) → i < k →
    admitInbound (inboundAt codec business calls i).tables a = .ok (.accepted row, t') →
    ∃ row', (inboundAt codec business calls k).rowOf a.messageId = some row' ∧
      row'.toNewInboundAdmission = a
  /-- rows stay, and HANDLED and FAILED are final -/
  stay : ∀ i k, i ≤ k → RowsStay (inboundAt codec business calls i) (inboundAt codec business calls k)
  /-- what a handler writes becomes visible when its message becomes HANDLED, or never -/
  effects : ∀ k call, calls[k]? = some call →
    (inboundAt codec business calls (k + 1)).business =
      (inboundAt codec business calls k).business ∨
    (call.Writes (inboundAt codec business calls k).business
        (inboundAt codec business calls (k + 1)).business ∧
      ∃ stored, finishedBy (inboundAt codec business calls k) call = some stored ∧
        stored.status = .handled)
  /-- a finish commits for the worker and the revision of the latest claim, inside its lease -/
  latest : ∀ k call stored, calls[k]? = some call →
    finishedBy (inboundAt codec business calls k) call = some stored →
    ∃ finish claim lease, call.finish = some finish ∧ finish.messageId = stored.messageId ∧
      latestClaim codec business calls k stored.messageId = some claim ∧
      claim.leaseOwner = some finish.workerId ∧ claim.revision = finish.revision ∧
      claim.leaseExpiresAt = some lease ∧ finish.finishedAt < lease
  /-- a message is finished at most once, and so are its effects -/
  once : ∀ m, countAlong inboundStep (finishes m) (RecoveryWorld.initial codec business) calls ≤ 1
  /-- a claim, a completion or a failure raises the revision of its row by one -/
  revision : ∀ k call stored, calls[k]? = some call →
    touchedBy (inboundAt codec business calls k) call = some stored →
    ∃ row, (inboundAt codec business calls k).rowOf stored.messageId = some row ∧
      (inboundAt codec business calls (k + 1)).rowOf stored.messageId = some stored ∧
      stored.revision = row.revision + 1
  /-- and changes no other -/
  others : ∀ k call m row, calls[k]? = some call →
    (∀ x, touchedBy (inboundAt codec business calls k) call = some x → x.messageId ≠ m) →
    (inboundAt codec business calls k).rowOf m = some row →
    (inboundAt codec business calls (k + 1)).rowOf m = some row
  /-- no two rows share a message or a place in a session -/
  distinct : ∀ k, ((inboundAt codec business calls k).tables.admissions.rows.map
      fun row => row.messageId).Nodup ∧
    ((inboundAt codec business calls k).tables.admissions.rows.map
      fun row => (row.sessionId, row.sequence)).Nodup
  /-- a conflicting admission changes no row, and its answer is Duplicate or Rejected -/
  conflicting : ∀ k a x, calls[k]? = some (.admitInbound a) →
    (inboundAt codec business calls k).rowOf x.messageId = some x → Conflicts x a →
    (inboundAt codec business calls (k + 1)).tables.admissions =
      (inboundAt codec business calls k).tables.admissions ∧
    ∀ outcome t', admitInbound (inboundAt codec business calls k).tables a = .ok (outcome, t') →
      (∃ row, outcome = .duplicate row) ∨ ∃ r, outcome = .rejected r
  /-- it gets one, if it is well formed and no other rejection stands in the place of its own -/
  answered : ∀ k a x, calls[k]? = some (.admitInbound a) →
    (inboundAt codec business calls k).rowOf x.messageId = some x → Conflicts x a →
    validateNewInbound codec a = .ok () → (a.sequence : Int) ≤ i64Max →
    a.sessionId ∈ (inboundAt codec business calls k).tables.sessions →
    RejectionAgrees (inboundAt codec business calls k).tables a .duplicateIdempotencyConflict →
    ∃ outcome t', admitInbound (inboundAt codec business calls k).tables a = .ok (outcome, t')

theorem conflicting_step {a : NewInboundAdmission P} {x : StoredInboundAdmission P}
    (hx : world.rowOf x.messageId = some x) (hclash : Conflicts x a) :
    (inboundStep world (.admitInbound a)).tables.admissions = world.tables.admissions ∧
    ∀ outcome t', admitInbound world.tables a = .ok (outcome, t') →
      (∃ row, outcome = .duplicate row) ∨ ∃ r, outcome = .rejected r := by
  have hanswer : ∀ outcome t', admitInbound world.tables a = .ok (outcome, t') →
      t'.admissions = world.tables.admissions ∧
      ((∃ row, outcome = .duplicate row) ∨ ∃ r, outcome = .rejected r) := by
    intro outcome t' hout
    rcases admitInbound_ok hout with ⟨hfree, -⟩ | ⟨row, -, -, rfl, rfl⟩ | ⟨r, rfl, -, hsame, -⟩
    · exact absurd hclash (hfree x.messageId x hx)
    · exact ⟨rfl, .inl ⟨row, rfl⟩⟩
    · exact ⟨hsame, .inr ⟨r, rfl⟩⟩
  refine ⟨?_, fun outcome t' hout => (hanswer outcome t' hout).2⟩
  cases hout : admitInbound world.tables a with
  | error e => simp only [inboundStep, inboundCall, hout]; rfl
  | ok done =>
    have hstep : (inboundStep world (.admitInbound a)).tables = done.2 := by
      simp only [inboundStep, inboundCall, hout]
      rfl
    rw [hstep]
    exact (hanswer done.1 done.2 hout).1

theorem inbound_durable (codec : EnvelopeCodec P) (business : W) (calls : List (InboundCall P W)) :
    Durable codec business calls where
  accepted i k a row t' hi hik hout := by
    have hnext : (inboundAt codec business calls (i + 1)).rowOf a.messageId =
        some (pendingRow a) := by
      have hstep : (inboundStep (inboundAt codec business calls i) (.admitInbound a)).tables = t' := by
        simp only [inboundStep, inboundCall, hout]
        rfl
      unfold RecoveryWorld.rowOf
      rw [inboundAt_succ hi, hstep]
      rcases admitInbound_ok hout with ⟨-, -, hinsert, -⟩ | ⟨_, _, _, hother, _⟩ | ⟨_, hother, _⟩
      · rw [Table.get_insert hinsert, pendingRow_messageId, if_pos rfl]
      · cases hother
      · cases hother
    obtain ⟨row', hrow', hidentity, -⟩ := rows_stay hik a.messageId _ hnext
    exact ⟨row', hrow', hidentity⟩
  stay i k hik := rows_stay hik
  effects k call hk := by
    rw [inboundAt_succ hk]
    exact business_step _ call
  latest k call stored hk hstored := by
    cases inboundStep_effect (inboundAt codec business calls k) call with
    | still hclaimed hfinished =>
      rw [hfinished] at hstored
      cases hstored
    | admitted a hclaimed hfinished =>
      rw [hfinished] at hstored
      cases hstored
    | claimed workerId claimedAt lease old hclaimed hfinished =>
      rw [hfinished] at hstored
      cases hstored
    | finished finish error row hclaimed hfinished haccepted hcall hdone =>
      rw [hfinished] at hstored
      cases hstored
      obtain ⟨lease, hlease, hintime⟩ := hdone.lease
      exact ⟨finish, row, lease, hcall, hdone.messageId.symm,
        processing_claimed hdone.rewritten.found hdone.status, hdone.owner, hdone.revision, hlease,
        hintime⟩
  once := finishes_once
  revision k call stored hk hstored := by
    obtain ⟨row, hrow, hnew, hrevision, -⟩ := touched_step _ call hstored
    rw [inboundAt_succ hk]
    exact ⟨row, hrow, hnew, hrevision⟩
  others k call m row hk hm hrow := by
    rw [inboundAt_succ hk]
    exact untouched_step _ call hm hrow
  distinct k := by
    refine ⟨(inboundAt codec business calls k).tables.admissions.keyed, ?_⟩
    rw [← List.filterMap_eq_map]
    exact (inboundAt codec business calls k).tables.admissions.indexed
  conflicting k a x hk hx hclash := by
    rw [inboundAt_succ hk]
    exact conflicting_step hx hclash
  answered k a x hk hx hclash hvalid hsequence hsession hagrees :=
    admitInbound_conflicting hvalid hsequence hsession hagrees hx hclash

end

end

/-! ## a lease that ran out -/

/-- an envelope as the members the store reads of it -/
def sampleCodec : EnvelopeCodec (String × String × Nat) where
  fields e := some
    { messageId := some e.1, messageType := some "execution.event",
      schemaVersion := some "ecp.v1.0", sessionId := some e.2.1, sequence := some e.2.2,
      clientId := none, correlationId := none, causationId := none }
  sha256Hex e := e.1 ++ e.2.1 ++ toString e.2.2
  digest text := text

def sampleAdmission (messageId : MessageId) (sessionId : SessionId) (sequence : Nat)
    (receivedAt : Int) : NewInboundAdmission (String × String × Nat) :=
  { messageId := messageId, sessionId := sessionId, clientId := "client", accountId := "account",
    terminalId := none, messageType := "execution.event", schemaVersion := "ecp.v1.0",
    sequence := sequence, correlationId := none, causationId := none,
    envelope := (messageId, sessionId, sequence), rawPayloadLength := some 64,
    receivedAt := receivedAt, createdAt := receivedAt }

def sampleRow (revision : Nat) : StoredInboundAdmission (String × String × Nat) :=
  { pendingRow (sampleAdmission "message" "session" 1 5) with revision := revision }

/-- the first worker's handler ends after the second has taken the message over -/
def sampleCalls : List (InboundCall (String × String × Nat) Nat) :=
  [.openSession "session", .admitInbound (sampleAdmission "message" "session" 1 5),
    .claim ⟨"first", 10, 20⟩, .reclaim ⟨"second", 20, 30⟩,
    .handle "first" (sampleRow 1) (fun business _ => .completed (business + 1)) 21,
    .handle "second" (sampleRow 2) (fun business _ => .completed (business + 1)) 25]

example : (inboundAt sampleCodec 0 sampleCalls 5).business = 0 ∧
    (inboundAt sampleCodec 0 sampleCalls 6).business = 1 ∧
    ((inboundAt sampleCodec 0 sampleCalls 6).rowOf "message").map (fun row =>
      (row.status, row.revision)) = some (.handled, 3) := by
  decide +kernel

end Sinan.Inbound
