import Sinan.Breaker.Durable
import Sinan.Breaker.Invariant
import Sinan.Lib.Journal

/-!
# Circuit breaker: one write and one restore

`WriteEffect` says what a compare-and-swap write can have done to the table, `Advanced` what one
store operation can do to a restore and to the table.  The revisions and epochs of the rows, their
keys, form a log that only grows.
-/

namespace Sinan.Breaker

open Lib Store

variable {J : Type}

/-! ## the table as a log -/

/-- the two columns that are never corrupted -/
def SnapshotRow.key (row : SnapshotRow J) : CircuitBreakerHeadMetadata where
  stateRevision := row.stateRevision
  recoveryEpoch := row.recoveryEpoch

def keys (rows : List (SnapshotRow J)) : List CircuitBreakerHeadMetadata :=
  rows.map SnapshotRow.key

theorem keys_appends {rows rows' : List (SnapshotRow J)} (h : Appends rows rows') :
    Appends (keys rows) (keys rows') := by
  rcases h with rfl | ⟨row, rfl⟩
  · exact .inl rfl
  · exact .inr ⟨row.key, List.map_append⟩

/-- the stored revisions are 1, 2, 3, … -/
def Numbered (rows : List (SnapshotRow J)) : Prop :=
  rows.map SnapshotRow.stateRevision = List.range' 1 rows.length

theorem Numbered.of_keys {rows rows' : List (SnapshotRow J)} (h : Numbered rows)
    (hkeys : keys rows' = keys rows) : Numbered rows' := by
  have hrevs := congrArg (List.map CircuitBreakerHeadMetadata.stateRevision) hkeys
  have hlen := congrArg List.length hkeys
  unfold keys at hrevs hlen
  rw [List.map_map, List.map_map] at hrevs
  rw [List.length_map, List.length_map] at hlen
  unfold Numbered at h ⊢
  rw [hlen, ← h]
  exact hrevs

theorem Numbered.append {rows : List (SnapshotRow J)} (h : Numbered rows) {row : SnapshotRow J}
    (hrow : row.stateRevision = rows.length + 1) : Numbered (rows ++ [row]) := by
  unfold Numbered at h ⊢
  rw [List.map_append, h, List.map_singleton, List.length_append, List.length_singleton,
    List.range'_concat, hrow]
  congr 2
  omega

theorem Numbered.of_append {rows more : List (SnapshotRow J)} (h : Numbered (rows ++ more)) :
    Numbered rows := by
  unfold Numbered at h ⊢
  rw [List.map_append, List.length_append, ← List.range'_append_1] at h
  exact (List.append_inj h (by rw [List.length_map, List.length_range'])).1

theorem Numbered.le {rows : List (SnapshotRow J)} (h : Numbered rows) {row : SnapshotRow J}
    (hrow : row ∈ rows) : 1 ≤ row.stateRevision ∧ row.stateRevision ≤ rows.length := by
  have hmem := List.mem_map_of_mem (f := SnapshotRow.stateRevision) hrow
  rw [h, List.mem_range'_1] at hmem
  omega

theorem headRow_last {rows : List (SnapshotRow J)} (h : Numbered rows) :
    headRow rows = rows.getLast? := by
  rcases List.eq_nil_or_concat' rows with rfl | ⟨earlier, row, rfl⟩
  · rfl
  · have hearlier := Numbered.of_append h
    have hlast : row.stateRevision = earlier.length + 1 := by
      unfold Numbered at h
      rw [List.map_append, hearlier, List.length_append, List.length_singleton,
        List.range'_concat] at h
      have hrow := List.append_cancel_left h
      rw [List.map_singleton, List.cons.injEq] at hrow
      omega
    rw [List.getLast?_concat, headRow, List.argmax_concat]
    cases hhead : earlier.argmax SnapshotRow.stateRevision with
    | none => rfl
    | some head =>
      have hle := (hearlier.le (List.argmax_mem hhead)).2
      exact if_pos (by omega)

theorem fetchCircuitBreakerHeadMetadata_last {rows : List (SnapshotRow J)} (h : Numbered rows) :
    fetchCircuitBreakerHeadMetadata rows = (keys rows).getLast? := by
  unfold fetchCircuitBreakerHeadMetadata keys
  rw [headRow_last h, List.getLast?_map]
  rfl

theorem head_revision {rows : List (SnapshotRow J)} (h : Numbered rows) :
    (headRow rows).map SnapshotRow.stateRevision =
      if rows = [] then none else some rows.length := by
  rw [headRow_last h, ← List.getLast?_map, h]
  rcases List.eq_nil_or_concat' rows with rfl | ⟨earlier, row, rfl⟩
  · rfl
  · rw [List.length_append, List.length_singleton, List.range'_concat, List.getLast?_concat,
      if_neg (List.append_ne_nil_of_right_ne_nil _ (List.cons_ne_nil _ _))]
    congr 1
    omega

theorem Numbered.key_at {rows : List (SnapshotRow J)} (h : Numbered rows)
    {key : CircuitBreakerHeadMetadata} (hkey : key ∈ keys rows) :
    ∃ n, key.stateRevision = n + 1 ∧ (keys rows)[n]? = some key := by
  obtain ⟨row, hrow, rfl⟩ := List.mem_map.mp hkey
  obtain ⟨n, hn, hget⟩ := List.getElem_of_mem hrow
  have hrev : (rows.map SnapshotRow.stateRevision)[n]? = (List.range' 1 rows.length)[n]? := by
    rw [h]
  rw [List.getElem?_map, List.getElem?_range' hn, List.getElem?_eq_getElem hn, hget] at hrev
  refine ⟨n, ?_, ?_⟩
  · have := Option.some.inj hrev
    show row.stateRevision = n + 1
    omega
  · show (rows.map SnapshotRow.key)[n]? = _
    rw [List.getElem?_map, List.getElem?_eq_getElem hn, hget]
    rfl

/-! ## one write -/

section
variable {codec : SnapshotCodec J}

theorem decodeRow_some {row : Option (SnapshotRow J)} {stored : StoredCircuitBreakerSnapshot J}
    (h : decodeRow codec row = .ok (some stored)) :
    ∃ r, row = some r ∧ circuitBreakerSnapshotFromRow codec r = .ok stored := by
  cases row with
  | none => cases h
  | some r =>
    cases hdecode : circuitBreakerSnapshotFromRow codec r with
    | error e =>
      rw [decodeRow, hdecode] at h
      cases h
    | ok s =>
      rw [decodeRow, hdecode] at h
      cases h
      exact ⟨r, rfl, hdecode⟩

theorem row_of_decoded {row : SnapshotRow J} {stored : StoredCircuitBreakerSnapshot J}
    (h : circuitBreakerSnapshotFromRow codec row = .ok stored) : stored.row = row := by
  unfold circuitBreakerSnapshotFromRow at h
  simp only [bind_ok, reject_ok, need_ok, pure_ok, exists_unit] at h
  obtain ⟨-, -, -, payload, hpayload, -, rfl⟩ := h
  rw [StoredCircuitBreakerSnapshot.row, ← hpayload]

/-- the row of a snapshot stored under the revision it is for -/
def NewCircuitBreakerSnapshot.target (snapshot : NewCircuitBreakerSnapshot J) : SnapshotRow J :=
  (snapshot.at (targetRevision snapshot.expectedHeadRevision)).row

/-- everything a write that returns can have done -/
structure WriteEffect (rows rows' : List (SnapshotRow J)) (snapshot : NewCircuitBreakerSnapshot J)
    (written : WriteOutcome (StoredCircuitBreakerSnapshot J)) : Prop where
  revision : written.record.stateRevision = targetRevision snapshot.expectedHeadRevision
  rows : (rows' = rows ∧ snapshot.target ∈ rows) ∨
    (rows' = rows ++ [snapshot.target] ∧
      snapshot.expectedHeadRevision = (headRow rows).map SnapshotRow.stateRevision)

variable {rows' : List (SnapshotRow J)} {snapshot : NewCircuitBreakerSnapshot J} {written :
  WriteOutcome (StoredCircuitBreakerSnapshot J)}

theorem WriteEffect.appends {rows : List (SnapshotRow J)}
    (h : WriteEffect rows rows' snapshot written) : Appends rows rows' := by
  rcases h.rows with ⟨rfl, -⟩ | ⟨rfl, -⟩
  · exact .inl rfl
  · exact .inr ⟨_, rfl⟩

theorem WriteEffect.stored {rows : List (SnapshotRow J)}
    (h : WriteEffect rows rows' snapshot written) : snapshot.target ∈ rows' := by
  rcases h.rows with ⟨rfl, hmem⟩ | ⟨rfl, -⟩
  · exact hmem
  · exact List.mem_append_right _ (List.mem_singleton_self _)

theorem WriteEffect.numbered {rows : List (SnapshotRow J)}
    (h : WriteEffect rows rows' snapshot written) (hn : Numbered rows) : Numbered rows' := by
  rcases h.rows with ⟨rfl, -⟩ | ⟨rfl, hhead⟩
  · exact hn
  · rw [head_revision hn] at hhead
    refine hn.append ?_
    show targetRevision snapshot.expectedHeadRevision = _
    rw [hhead]
    by_cases hrows : rows = []
    · rw [if_pos hrows, hrows]
      rfl
    · rw [if_neg hrows]
      rfl

variable [DecidableEq J] {existing : StoredCircuitBreakerSnapshot J}

theorem at_of_same (h : sameCircuitBreakerSnapshot existing snapshot = true) :
    existing = snapshot.at existing.stateRevision := by
  unfold sameCircuitBreakerSnapshot at h
  simp only [Bool.and_eq_true, beq_iff_eq, decide_eq_true_eq] at h
  obtain ⟨⟨⟨⟨hschema, hstatus⟩, hepoch⟩, hupdated⟩, hpayload⟩ := h
  rw [NewCircuitBreakerSnapshot.at, ← hschema, ← hstatus, ← hepoch, ← hupdated, ← hpayload]

/-- the row of the target revision, read back and found the same, is the row that was to be written -/
theorem target_of_duplicate {rows : List (SnapshotRow J)}
    (hread : decodeRow codec
      (rowOfRevision rows (targetRevision snapshot.expectedHeadRevision)) = .ok (some existing))
    (hsame : sameCircuitBreakerSnapshot existing snapshot = true) :
    existing.stateRevision = targetRevision snapshot.expectedHeadRevision ∧
      snapshot.target ∈ rows := by
  obtain ⟨row, hfind, hdecode⟩ := decodeRow_some hread
  have hrow := row_of_decoded hdecode
  have hrev : row.stateRevision = targetRevision snapshot.expectedHeadRevision := by
    have := List.find?_some hfind
    exact beq_iff_eq.mp this
  have hexisting : existing.stateRevision = targetRevision snapshot.expectedHeadRevision := by
    rw [← hrev, ← hrow]
    rfl
  refine ⟨hexisting, ?_⟩
  have htarget : snapshot.target = row := by
    rw [← hrow, NewCircuitBreakerSnapshot.target, ← hexisting, ← at_of_same hsame]
  rw [htarget]
  exact List.mem_of_find?_eq_some hfind

theorem write_effect {rows : List (SnapshotRow J)}
    (h : writeCircuitBreakerSnapshot codec rows snapshot = .ok (written, rows')) :
    WriteEffect rows rows' snapshot written := by
  have duplicate : ∀ {existing : StoredCircuitBreakerSnapshot J} {e : StoreError},
      decodeRow codec (rowOfRevision rows (targetRevision snapshot.expectedHeadRevision)) =
        .ok (some existing) →
      (if sameCircuitBreakerSnapshot existing snapshot then .ok (.duplicate existing, rows)
        else .error e : StoreCheck (WriteOutcome (StoredCircuitBreakerSnapshot J) × _)) =
        .ok (written, rows') →
      WriteEffect rows rows' snapshot written := by
    intro existing e hread hif
    by_cases hsame : sameCircuitBreakerSnapshot existing snapshot = true
    · rw [if_pos hsame] at hif
      cases hif
      obtain ⟨hrev, hmem⟩ := target_of_duplicate hread hsame
      exact ⟨hrev, .inl ⟨rfl, hmem⟩⟩
    · rw [if_neg hsame] at hif
      cases hif
  unfold writeCircuitBreakerSnapshot at h
  simp only [bind_ok, exists_unit] at h
  obtain ⟨-, -, h⟩ := h
  by_cases hhead : snapshot.expectedHeadRevision = (headRow rows).map SnapshotRow.stateRevision
  · rw [if_neg (not_not.mpr hhead)] at h
    by_cases hrow : (rowOfRevision rows (targetRevision snapshot.expectedHeadRevision)).isSome
    · rw [if_pos hrow] at h
      simp only [bind_ok, need_ok] at h
      obtain ⟨_, hread, _, rfl, hif⟩ := h
      exact duplicate hread hif
    · rw [if_neg hrow] at h
      cases h
      exact ⟨rfl, .inr ⟨rfl, hhead⟩⟩
  · rw [if_pos hhead] at h
    by_cases htarget : (headRow rows).map SnapshotRow.stateRevision =
        some (targetRevision snapshot.expectedHeadRevision)
    · rw [if_pos htarget] at h
      simp only [bind_ok, need_ok] at h
      obtain ⟨_, hread, _, rfl, hif⟩ := h
      exact duplicate hread hif
    · rw [if_neg htarget] at h
      cases h

end

/-! ## what a restore makes of one payload -/

variable {failure : CircuitBreakerRestoreFailure} {now : Int} {outcome : CircuitBreakerOutcome}
  {e : DurableCircuitBreakerRestoreError}

theorem failClosedAfterEpoch_ok {epoch : Nat}
    (h : failClosedAfterEpoch failure now epoch = .ok outcome) :
    outcome.state.status = .open ∧ outcome.state.recoveryEpoch = epoch + 1 ∧
      durableRestoreFailure outcome = some failure := by
  rw [failClosedAfterEpoch, mapError_ok, failClosedCircuitBreakerRestoreAfterEpoch] at h
  cases hsucc : checkedSucc epoch with
  | none =>
    rw [hsucc] at h
    cases h
  | some next =>
    rw [hsucc] at h
    cases h
    obtain ⟨rfl, -⟩ := checkedSucc_some hsucc
    simp only [safetyFallback, openBreaker, hsucc, asSafetyFallback, incidentState,
      CircuitBreakerState.new]
    exact ⟨rfl, rfl, rfl⟩

theorem failClosedAfterEpoch_error {epoch : Nat}
    (h : failClosedAfterEpoch failure now epoch = .error e) : e.outcome.state.status = .open := by
  rw [failClosedAfterEpoch, failClosedCircuitBreakerRestoreAfterEpoch] at h
  cases hsucc : checkedSucc epoch with
  | none =>
    rw [hsucc] at h
    cases h
    rfl
  | some next =>
    rw [hsucc] at h
    cases h

theorem failClosedCircuitBreakerRestore_failure (failure : CircuitBreakerRestoreFailure)
    (now : Int) :
    durableRestoreFailure (failClosedCircuitBreakerRestore failure now) = some failure := by
  have h : failClosedAfterEpoch failure now 0 =
      .ok (failClosedCircuitBreakerRestore failure now) := rfl
  exact (failClosedAfterEpoch_ok h).2.2

/-- a payload that decodes to a state the clock does not contradict -/
structure Valid (codec : SnapshotCodec J) (payload : J) (now : Int)
    (decoded : CircuitBreakerSnapshotV1) : Prop where
  decodes : codec.decode payload = some decoded
  schema : decoded.schemaVersion = circuitBreakerSnapshotSchemaVersionV1
  clock : 0 ≤ now
  validated : validateRestoredState decoded.restored now = .ok ()

theorem Valid.notAfter {codec : SnapshotCodec J} {payload : J} {decoded : CircuitBreakerSnapshotV1}
    (h : Valid codec payload now decoded) :
    decoded.restored.notAfter now :=
  (validateRestoredState_ok.mp h.validated).2.1

theorem valid_of_no_failure {codec : SnapshotCodec J} {payload : J}
    (h : durableRestoreFailure (restoreCircuitBreakerSnapshot codec payload now) = none) :
    ∃ decoded, Valid codec payload now decoded ∧
      restoreCircuitBreakerSnapshot codec payload now =
        CircuitBreakerOutcome.unchanged decoded.restored := by
  have refused : ∀ {failure : CircuitBreakerRestoreFailure},
      durableRestoreFailure (failClosedCircuitBreakerRestore failure now) ≠ none := by
    intro failure hnone
    rw [failClosedCircuitBreakerRestore_failure] at hnone
    cases hnone
  unfold restoreCircuitBreakerSnapshot at h ⊢
  by_cases hclock : now < 0
  · rw [if_pos hclock] at h
    exact absurd h refused
  rw [if_neg hclock] at h ⊢
  cases hdecode : codec.decode payload with
  | none =>
    rw [hdecode] at h
    exact absurd h refused
  | some decoded =>
    simp only [hdecode, restoreCircuitBreakerSnapshotV1, if_neg hclock] at h ⊢
    by_cases hschema : decoded.schemaVersion = circuitBreakerSnapshotSchemaVersionV1
    · rw [if_neg (not_not.mpr hschema)] at h ⊢
      cases hvalid : validateRestoredState decoded.restored now with
      | error failure =>
        rw [hvalid] at h
        exact absurd h refused
      | ok _ => exact ⟨decoded, ⟨hdecode, hschema, Int.not_lt.mp hclock, hvalid⟩, rfl⟩
    · rw [if_pos hschema] at h
      exact absurd h refused

/-! ## the loop body -/

/-- `snapshot` carries `outcome`, an incident opened after `head` -/
structure Prepared (codec : SnapshotCodec J) (head : Option CircuitBreakerHeadMetadata)
    (outcome : CircuitBreakerOutcome) (snapshot : NewCircuitBreakerSnapshot J) : Prop where
  isOpen : outcome.state.status = .open
  epoch : outcome.state.recoveryEpoch = head.elim 0 CircuitBreakerHeadMetadata.recoveryEpoch + 1
  expected : snapshot.expectedHeadRevision = head.map CircuitBreakerHeadMetadata.stateRevision
  status : snapshot.status = "OPEN"
  recoveryEpoch : snapshot.recoveryEpoch = outcome.state.recoveryEpoch
  payload : codec.encode outcome.state.durableSnapshotV1 = .ok snapshot.payload

variable {head : Option CircuitBreakerHeadMetadata}

theorem prepareWrite_ok {codec : SnapshotCodec J} {snapshot : NewCircuitBreakerSnapshot J}
    (h : prepareWrite codec head failure now = .ok (outcome, snapshot)) :
    Prepared codec head outcome snapshot := by
  unfold prepareWrite encodeSnapshot at h
  simp only [bind_ok, mapError_ok, pure_ok] at h
  obtain ⟨_, hfail, _, ⟨payload, hpayload, rfl⟩, heq⟩ := h
  cases heq
  obtain ⟨hopen, hepoch, -⟩ := failClosedAfterEpoch_ok hfail
  refine ⟨hopen, hepoch, rfl, ?_, rfl, hpayload⟩
  show statusName outcome.state.status = "OPEN"
  rw [hopen]
  rfl

theorem encodeSnapshot_error {codec : SnapshotCodec J} {expected : Option Nat}
    (h : encodeSnapshot codec outcome expected now = .error e) : e.outcome = outcome := by
  cases hencode : codec.encode outcome.state.durableSnapshotV1 with
  | error source =>
    rw [encodeSnapshot, hencode] at h
    cases h
    rfl
  | ok payload =>
    rw [encodeSnapshot, hencode] at h
    cases h

theorem prepareWrite_error {codec : SnapshotCodec J}
    (h : prepareWrite codec head failure now = .error e) : e.outcome.state.status = .open := by
  rcases bind_error.mp h with hfail | ⟨outcome, hfail, h⟩
  · exact failClosedAfterEpoch_error hfail
  rcases bind_error.mp h with hencode | ⟨snapshot, -, h⟩
  · rw [encodeSnapshot_error hencode]
    exact (failClosedAfterEpoch_ok hfail).1
  · cases h

theorem failedRead_error (now : Int) (epoch : Nat) (source : StoreError) :
    ∃ e, failedRead now epoch source = .error e ∧ e.outcome.state.status = .open := by
  unfold failedRead
  cases h : failClosedAfterEpoch .storeUnavailable now epoch with
  | error e => exact ⟨e, rfl, failClosedAfterEpoch_error h⟩
  | ok outcome => exact ⟨.storeRead outcome source, rfl, (failClosedAfterEpoch_ok h).1⟩

def StoredCircuitBreakerSnapshot.key (snapshot : StoredCircuitBreakerSnapshot J) :
    CircuitBreakerHeadMetadata where
  stateRevision := snapshot.stateRevision
  recoveryEpoch := snapshot.recoveryEpoch

/-- where the loop body leads: back with the state that was read, on to a write behind one of the
two heads that were read, or out with an OPEN breaker -/
inductive Settled (codec : SnapshotCodec J) (c : RestoreCall J)
    (head : Option CircuitBreakerHeadMetadata)
    (latest : Option (StoredCircuitBreakerSnapshot J)) : RestorePhase J → Prop
  | restored {snapshot : StoredCircuitBreakerSnapshot J} {decoded : CircuitBreakerSnapshotV1}
      (read : latest = some snapshot)
      (valid : Valid codec snapshot.payload c.serverNowMs decoded) :
      Settled codec c head latest (.done (.ok
        { outcome := CircuitBreakerOutcome.unchanged decoded.restored
          stateRevision := snapshot.stateRevision
          disposition := .restored
          casReloads := c.casReloads }))
  | write {behind : Option CircuitBreakerHeadMetadata} {outcome : CircuitBreakerOutcome}
      {snapshot : NewCircuitBreakerSnapshot J}
      (read : behind = head ∨ behind = latest.map StoredCircuitBreakerSnapshot.key)
      (prepared : Prepared codec behind outcome snapshot) :
      Settled codec c head latest (.write outcome snapshot)
  | failed {e : DurableCircuitBreakerRestoreError} (isOpen : e.outcome.state.status = .open) :
      Settled codec c head latest (.done (.error e))

theorem settled_prepare {codec : SnapshotCodec J} {c : RestoreCall J}
    {behind : Option CircuitBreakerHeadMetadata} {latest : Option (StoredCircuitBreakerSnapshot J)}
    (failure : CircuitBreakerRestoreFailure)
    (hbehind : behind = head ∨ behind = latest.map StoredCircuitBreakerSnapshot.key)
    (heff : effectiveHead codec head latest c.serverNowMs = .inr (behind, failure)) :
    Settled codec c head latest (c.settle codec head latest) := by
  unfold RestoreCall.settle
  simp only [heff]
  cases hprepare : prepareWrite codec behind failure c.serverNowMs with
  | error e => exact .failed (prepareWrite_error hprepare)
  | ok pair => exact .write hbehind (prepareWrite_ok hprepare)

theorem settle_settled (codec : SnapshotCodec J) (c : RestoreCall J)
    (head : Option CircuitBreakerHeadMetadata)
    (latest : Option (StoredCircuitBreakerSnapshot J)) :
    Settled codec c head latest (c.settle codec head latest) := by
  cases latest with
  | none => exact settled_prepare _ (.inl rfl) rfl
  | some snapshot =>
    by_cases hbehind : head.any (fun head => decide (head.stateRevision > snapshot.stateRevision))
    · exact settled_prepare _ (.inl rfl) (if_pos hbehind)
    · cases hfailure : durableRestoreFailure
          (restoreCircuitBreakerSnapshot codec snapshot.payload c.serverNowMs) with
      | some failure =>
        refine settled_prepare failure (.inr rfl) ?_
        rw [effectiveHead, if_neg hbehind]
        simp only [hfailure]
        rfl
      | none =>
        obtain ⟨decoded, hvalid, houtcome⟩ := valid_of_no_failure hfailure
        have heff : effectiveHead codec head (some snapshot) c.serverNowMs =
            .inl (CircuitBreakerOutcome.unchanged decoded.restored, snapshot.stateRevision) := by
          rw [← houtcome, effectiveHead, if_neg hbehind]
          simp only [hfailure]
        unfold RestoreCall.settle
        simp only [heff]
        exact .restored rfl hvalid

/-! ## one store operation of one restore -/

/-- the store may fail in place of any answer -/
def answered {α : Type} (failure : Option StoreError) (answer : StoreCheck α) : StoreCheck α :=
  match failure with
  | some e => .error e
  | none => answer

theorem answered_ok {α : Type} {failure : Option StoreError} {answer : StoreCheck α} {a : α}
    (h : answered failure answer = .ok a) : answer = .ok a := by
  cases failure with
  | none => exact h
  | some e => cases h

section
variable (codec : SnapshotCodec J)

/-- everything one store operation can do to a restore and to the table -/
inductive Advanced (rows : List (SnapshotRow J)) (c : RestoreCall J) :
    RestoreCall J × List (SnapshotRow J) → Prop
  | head (phase : c.phase = .readHead) :
      Advanced rows c ({ c with phase := .readLatest (fetchCircuitBreakerHeadMetadata rows) }, rows)
  | settled {head : Option CircuitBreakerHeadMetadata}
      {latest : Option (StoredCircuitBreakerSnapshot J)} {next : RestorePhase J}
      (phase : c.phase = .readLatest head)
      (read : ∀ snapshot, latest = some snapshot →
        fetchLatestCircuitBreakerSnapshot codec rows = .ok (some snapshot))
      (settled : Settled codec c head latest next) :
      Advanced rows c ({ c with phase := next }, rows)
  | failedRead {e : DurableCircuitBreakerRestoreError}
      (phase : c.phase = .readHead ∨ ∃ head, c.phase = .readLatest head)
      (isOpen : e.outcome.state.status = .open) :
      Advanced rows c ({ c with phase := .done (.error e) }, rows)
  | written {outcome : CircuitBreakerOutcome} {snapshot : NewCircuitBreakerSnapshot J}
      {written : WriteOutcome (StoredCircuitBreakerSnapshot J)} {rows' : List (SnapshotRow J)}
      (phase : c.phase = .write outcome snapshot) (effect : WriteEffect rows rows' snapshot written) :
      Advanced rows c
        ({ c with writes := c.writes + 1
                  phase := .done (.ok
                    { outcome
                      stateRevision := written.record.stateRevision
                      disposition := .failClosedPersisted
                      casReloads := c.casReloads }) }, rows')
  | stale {outcome : CircuitBreakerOutcome} {snapshot : NewCircuitBreakerSnapshot J}
      (phase : c.phase = .write outcome snapshot) (left : c.casReloads < c.maxCasReloads) :
      Advanced rows c
        ({ c with writes := c.writes + 1, casReloads := c.casReloads + 1, phase := .readHead }, rows)
  | failedWrite {outcome : CircuitBreakerOutcome} {snapshot : NewCircuitBreakerSnapshot J}
      {e : DurableCircuitBreakerRestoreError} (phase : c.phase = .write outcome snapshot)
      (carries : e.outcome = outcome) :
      Advanced rows c ({ c with writes := c.writes + 1, phase := .done (.error e) }, rows)
  | done {result : RestoreResult} (phase : c.phase = .done result) : Advanced rows c (c, rows)

theorem advanced_failedRead {rows : List (SnapshotRow J)} {c : RestoreCall J}
    (phase : c.phase = .readHead ∨ ∃ head, c.phase = .readLatest head) (now : Int) (epoch : Nat)
    (source : StoreError) :
    Advanced codec rows c ({ c with phase := .done (failedRead now epoch source) }, rows) := by
  obtain ⟨e, he, hopen⟩ := failedRead_error now epoch source
  rw [he]
  exact .failedRead phase hopen

variable [DecidableEq J]

/-- the next store operation of a restore; a write that fails leaves the table as it was -/
def RestoreCall.advance (failure : Option StoreError) (rows : List (SnapshotRow J))
    (c : RestoreCall J) : RestoreCall J × List (SnapshotRow J) :=
  match c.phase with
  | .readHead =>
    let read := answered failure (.ok (fetchCircuitBreakerHeadMetadata rows))
    ({ c with phase := c.afterHead read }, rows)
  | .readLatest head =>
    let read := answered failure (fetchLatestCircuitBreakerSnapshot codec rows)
    ({ c with phase := c.afterLatest codec head read }, rows)
  | .write outcome snapshot =>
    match answered failure (writeCircuitBreakerSnapshot codec rows snapshot) with
    | .ok (written, rows') => (c.afterWrite outcome (.ok written), rows')
    | .error e => (c.afterWrite outcome (.error e), rows)
  | .done _ => (c, rows)

theorem advance_head (failure : Option StoreError) (rows : List (SnapshotRow J)) (c : RestoreCall J)
    (phase : c.phase = .readHead) : Advanced codec rows c (c.advance codec failure rows) := by
  unfold RestoreCall.advance
  simp only [phase]
  cases failure with
  | none => exact .head phase
  | some e => exact advanced_failedRead codec (.inl phase) c.serverNowMs 0 e

theorem advance_latest (failure : Option StoreError) (rows : List (SnapshotRow J))
    (c : RestoreCall J) {head : Option CircuitBreakerHeadMetadata}
    (phase : c.phase = .readLatest head) :
    Advanced codec rows c (c.advance codec failure rows) := by
  unfold RestoreCall.advance
  simp only [phase]
  cases hread : answered failure (fetchLatestCircuitBreakerSnapshot codec rows) with
  | ok latest =>
    refine .settled phase ?_ (settle_settled codec c head latest)
    rintro snapshot rfl
    exact answered_ok hread
  | error e =>
    have refused : Advanced codec rows c (_, rows) := advanced_failedRead codec
      (.inr ⟨head, phase⟩) c.serverNowMs (head.elim 0 CircuitBreakerHeadMetadata.recoveryEpoch) e
    cases e with
    | corruptData entity key reason =>
      refine .settled phase ?_ (settle_settled codec c head none)
      intro snapshot hnone
      cases hnone
    | _ => exact refused

theorem advance_write (failure : Option StoreError) (rows : List (SnapshotRow J))
    (c : RestoreCall J) {outcome : CircuitBreakerOutcome} {snapshot : NewCircuitBreakerSnapshot J}
    (phase : c.phase = .write outcome snapshot) :
    Advanced codec rows c (c.advance codec failure rows) := by
  unfold RestoreCall.advance
  simp only [phase]
  cases hwrite : answered failure (writeCircuitBreakerSnapshot codec rows snapshot) with
  | ok pair => exact .written phase (write_effect (answered_ok hwrite))
  | error e =>
    cases e with
    | staleWrite entity key =>
      unfold RestoreCall.afterWrite
      by_cases hleft : c.casReloads < c.maxCasReloads
      · simp only [if_pos hleft]
        exact .stale phase hleft
      · simp only [if_neg hleft]
        exact .failedWrite phase rfl
    | _ => exact .failedWrite phase rfl

theorem advance_advanced (failure : Option StoreError) (rows : List (SnapshotRow J))
    (c : RestoreCall J) : Advanced codec rows c (c.advance codec failure rows) := by
  cases phase : c.phase with
  | readHead => exact advance_head codec failure rows c phase
  | readLatest head => exact advance_latest codec failure rows c phase
  | write outcome snapshot => exact advance_write codec failure rows c phase
  | done result =>
    unfold RestoreCall.advance
    simp only [phase]
    exact .done phase

end

theorem Advanced.rows {codec : SnapshotCodec J} {rows : List (SnapshotRow J)} {c : RestoreCall J}
    {next : RestoreCall J × List (SnapshotRow J)} (h : Advanced codec rows c next) :
    Appends rows next.2 ∧ (Numbered rows → Numbered next.2) := by
  cases h with
  | written phase effect => exact ⟨effect.appends, effect.numbered⟩
  | _ => exact ⟨.inl rfl, id⟩

end Sinan.Breaker
