import Sinan.Breaker.Attempt

/-!
# Circuit breaker: any number of restores on one log

`SharedLog` is the table and every restore started so far; an action lets one restore do its next
store operation, lets another writer write, or corrupts payload columns of a row.  The keys of the
rows only grow, which carries everything else: what a restore read is still there when it writes,
and the head that a row replaced is the row in front of it.
-/

namespace Sinan.Breaker

open Lib Store

variable {J : Type}

theorem keys_modify (rows : List (SnapshotRow J)) (row : Nat) {f : SnapshotRow J → SnapshotRow J}
    (hf : ∀ r, (f r).key = r.key) : keys (rows.modify row f) = keys rows := by
  refine List.ext_getElem? fun n => ?_
  unfold keys
  rw [List.getElem?_map, List.getElem?_map, List.getElem?_modify]
  cases rows[n]? with
  | none => rfl
  | some r =>
    show some (if row = n then f r else r).key = some r.key
    by_cases h : row = n
    · rw [if_pos h, hf]
    · rw [if_neg h]

inductive LogAction (J : Type) where
  /-- a new restore -/
  | restore (serverNowMs : Int) (maxCasReloads : Nat)
  | advance (call : Nat) (failure : Option StoreError)
  /-- another caller of `write_circuit_breaker_snapshot` -/
  | write (snapshot : NewCircuitBreakerSnapshot J)
  | corrupt (row : Nat) (schemaVersion status : String) (updatedAt : Int) (payload : Option J)
  deriving DecidableEq

structure SharedLog (J : Type) where
  rows : List (SnapshotRow J)
  calls : List (RestoreCall J)

def SharedLog.empty : SharedLog J where
  rows := []
  calls := []

/-- everything an action can do to the shared log -/
inductive Stepped (codec : SnapshotCodec J) (log : SharedLog J) : LogAction J → SharedLog J → Prop
  | idle {action : LogAction J} : Stepped codec log action log
  | started {now : Int} {max : Nat} :
      Stepped codec log (.restore now max) { log with calls := log.calls ++ [RestoreCall.start now max] }
  | advanced {call : Nat} {failure : Option StoreError} {c : RestoreCall J}
      {next : RestoreCall J × List (SnapshotRow J)} (found : log.calls[call]? = some c)
      (effect : Advanced codec log.rows c next) :
      Stepped codec log (.advance call failure) { rows := next.2, calls := log.calls.set call next.1 }
  | wrote {snapshot : NewCircuitBreakerSnapshot J} {rows : List (SnapshotRow J)}
      {written : WriteOutcome (StoredCircuitBreakerSnapshot J)}
      (effect : WriteEffect log.rows rows snapshot written) :
      Stepped codec log (.write snapshot) { log with rows }
  | corrupted {row : Nat} {schemaVersion status : String} {updatedAt : Int} {payload : Option J}
      {damage : SnapshotRow J → SnapshotRow J} (key : ∀ r, (damage r).key = r.key) :
      Stepped codec log (.corrupt row schemaVersion status updatedAt payload)
        { log with rows := log.rows.modify row damage }

/-! ## the keys only grow -/

variable {codec : SnapshotCodec J} {log log' : SharedLog J} {action : LogAction J}

theorem Stepped.appends (h : Stepped codec log action log') :
    Appends (keys log.rows) (keys log'.rows) := by
  cases h with
  | idle => exact .inl rfl
  | started => exact .inl rfl
  | advanced found effect => exact keys_appends effect.rows.1
  | wrote effect => exact keys_appends effect.appends
  | corrupted key => exact .inl (keys_modify log.rows _ key)

theorem Stepped.numbered (h : Stepped codec log action log') (hn : Numbered log.rows) :
    Numbered log'.rows := by
  cases h with
  | idle => exact hn
  | started => exact hn
  | advanced found effect => exact effect.rows.2 hn
  | wrote effect => exact effect.numbered hn
  | corrupted key => exact hn.of_keys (keys_modify log.rows _ key)

theorem Stepped.row (h : Stepped codec log action log') {n : Nat} {row : SnapshotRow J}
    (hrow : log.rows[n]? = some row)
    (hhit : ∀ schema status updatedAt payload,
      action ≠ .corrupt n schema status updatedAt payload) : log'.rows[n]? = some row := by
  cases h with
  | idle => exact hrow
  | started => exact hrow
  | advanced found effect => exact effect.rows.1.entry hrow
  | wrote effect => exact effect.appends.entry hrow
  | @corrupted m schema status updatedAt payload damage key =>
    have hne : m ≠ n := by
      rintro rfl
      exact hhit schema status updatedAt payload rfl
    show (log.rows.modify m damage)[n]? = some row
    rw [List.getElem?_modify, hrow]
    show some (if m = n then damage row else row) = some row
    rw [if_neg hne]

/-! ## what is known of a restore on its way -/

/-- the heads a restore has read are in the log, and its writes are counted by its reloads -/
structure Tracked (codec : SnapshotCodec J) (known : List CircuitBreakerHeadMetadata)
    (c : RestoreCall J) : Prop where
  reloads : c.casReloads ≤ c.maxCasReloads
  writes : c.writes ≤ c.casReloads + 1
  fresh : (∀ result, c.phase ≠ .done result) → c.writes = c.casReloads
  read : ∀ head, c.phase = .readLatest (some head) → head ∈ known
  prepared : ∀ outcome snapshot, c.phase = .write outcome snapshot →
    ∃ head, (∀ h, head = some h → h ∈ known) ∧ Prepared codec head outcome snapshot

variable {c : RestoreCall J} {rows : List (SnapshotRow J)}

theorem Tracked.mono {known known' : List CircuitBreakerHeadMetadata} (h : Tracked codec known c)
    (hsub : known ⊆ known') : Tracked codec known' c where
  reloads := h.reloads
  writes := h.writes
  fresh := h.fresh
  read := fun head hphase => hsub (h.read head hphase)
  prepared := by
    intro outcome snapshot hphase
    obtain ⟨head, hknown, hprepared⟩ := h.prepared outcome snapshot hphase
    exact ⟨head, fun h hh => hsub (hknown h hh), hprepared⟩

theorem tracked_start (now : Int) (max : Nat) :
    Tracked codec [] (RestoreCall.start now max : RestoreCall J) where
  reloads := Nat.zero_le _
  writes := Nat.zero_le _
  fresh := fun _ => rfl
  read := fun _ h => (nomatch h)
  prepared := fun _ _ h => (nomatch h)

theorem fetchCircuitBreakerHeadMetadata_mem {head : CircuitBreakerHeadMetadata}
    (h : fetchCircuitBreakerHeadMetadata rows = some head) :
    head ∈ keys rows := by
  obtain ⟨row, hrow, rfl⟩ := Option.map_eq_some_iff.mp h
  exact List.mem_map_of_mem (List.argmax_mem hrow)

variable {snapshot : StoredCircuitBreakerSnapshot J}

theorem fetchLatest_row (h : fetchLatestCircuitBreakerSnapshot codec rows = .ok (some snapshot)) :
    headRow rows = some snapshot.row := by
  obtain ⟨row, hrow, hdecode⟩ := decodeRow_some h
  rw [hrow, row_of_decoded hdecode]

theorem fetchLatest_mem (h : fetchLatestCircuitBreakerSnapshot codec rows = .ok (some snapshot)) :
    snapshot.key ∈ keys rows :=
  List.mem_map_of_mem (f := SnapshotRow.key) (List.argmax_mem (fetchLatest_row h))

theorem Advanced.tracked {next : RestoreCall J × List (SnapshotRow J)}
    (h : Advanced codec rows c next) (hc : Tracked codec (keys rows) c) :
    Tracked codec (keys next.2) next.1 := by
  cases h with
  | head phase =>
    refine ⟨hc.reloads, hc.writes, fun _ => hc.fresh fun r hr => ?_, ?_, fun _ _ h => (nomatch h)⟩
    · rw [phase] at hr
      cases hr
    · intro head hhead
      exact fetchCircuitBreakerHeadMetadata_mem (RestorePhase.readLatest.inj hhead)
  | @settled head latest next phase read settled =>
    have hfresh := hc.fresh fun r hr => by rw [phase] at hr; cases hr
    refine ⟨hc.reloads, hc.writes, fun _ => hfresh, ?_, ?_⟩
    · intro h hnext
      cases settled <;> cases hnext
    · intro outcome snapshot hnext
      cases settled with
      | restored => cases hnext
      | failed => cases hnext
      | @write behind _ _ hread prepared =>
        cases hnext
        refine ⟨behind, ?_, prepared⟩
        rintro h rfl
        rcases hread with rfl | hkey
        · exact hc.read h phase
        · obtain ⟨stored, hstored, rfl⟩ := Option.map_eq_some_iff.mp hkey.symm
          exact fetchLatest_mem (read stored hstored)
  | failedRead phase isOpen =>
    exact ⟨hc.reloads, hc.writes, fun h => absurd rfl (h _), fun _ h => (nomatch h),
      fun _ _ h => (nomatch h)⟩
  | written phase effect =>
    have hfresh := hc.fresh fun r hr => by rw [phase] at hr; cases hr
    exact ⟨hc.reloads, Nat.succ_le_succ (Nat.le_of_eq hfresh), fun h => absurd rfl (h _),
      fun _ h => (nomatch h), fun _ _ h => (nomatch h)⟩
  | stale phase left =>
    have hfresh := hc.fresh fun r hr => by rw [phase] at hr; cases hr
    exact ⟨left, Nat.succ_le_succ (Nat.le_succ_of_le (Nat.le_of_eq hfresh)),
      fun _ => congrArg Nat.succ hfresh, fun _ h => (nomatch h), fun _ _ h => (nomatch h)⟩
  | failedWrite phase carries =>
    have hfresh := hc.fresh fun r hr => by rw [phase] at hr; cases hr
    exact ⟨hc.reloads, Nat.succ_le_succ (Nat.le_of_eq hfresh), fun h => absurd rfl (h _),
      fun _ h => (nomatch h), fun _ _ h => (nomatch h)⟩
  | done phase => exact hc

/-- the revisions of the shared log are in order and every restore is tracked -/
structure Ordered (codec : SnapshotCodec J) (log : SharedLog J) : Prop where
  numbered : Numbered log.rows
  tracked : ∀ c ∈ log.calls, Tracked codec (keys log.rows) c

theorem Stepped.ordered (h : Stepped codec log action log') (ho : Ordered codec log) :
    Ordered codec log' := by
  refine ⟨h.numbered ho.numbered, ?_⟩
  have hkeys := h.appends.initial.subset
  have old : ∀ c ∈ log.calls, Tracked codec (keys log'.rows) c :=
    fun c hc => (ho.tracked c hc).mono hkeys
  intro c hc
  cases h with
  | idle => exact old c hc
  | started =>
    rcases List.mem_append.mp hc with hc | hc
    · exact old c hc
    · rw [List.mem_singleton.mp hc]
      exact (tracked_start _ _).mono (List.nil_subset _)
  | advanced found effect =>
    rcases List.mem_or_eq_of_mem_set hc with hc | rfl
    · exact old c hc
    · exact effect.tracked (ho.tracked _ (List.mem_of_getElem? found))
  | wrote effect => exact old c hc
  | corrupted key => exact old c hc

/-! ## the run -/

section
variable [DecidableEq J] (codec : SnapshotCodec J)

def SharedLog.step (log : SharedLog J) : LogAction J → SharedLog J
  | .restore serverNowMs maxCasReloads =>
    { log with calls := log.calls ++ [RestoreCall.start serverNowMs maxCasReloads] }
  | .advance call failure =>
    match log.calls[call]? with
    | none => log
    | some c =>
      let (c, rows) := c.advance codec failure log.rows
      { rows, calls := log.calls.set call c }
  | .write snapshot =>
    match writeCircuitBreakerSnapshot codec log.rows snapshot with
    | .ok (_, rows) => { log with rows }
    | .error _ => log
  | .corrupt row schemaVersion status updatedAt payload =>
    { log with rows := log.rows.modify row fun r =>
        { r with schemaVersion, status, updatedAt, payload } }

theorem step_stepped (log : SharedLog J) (action : LogAction J) :
    Stepped codec log action (log.step codec action) := by
  unfold SharedLog.step
  cases action with
  | restore now max => exact .started
  | advance call failure =>
    cases hcall : log.calls[call]? with
    | none =>
      simp only [hcall]
      exact .idle
    | some c =>
      simp only [hcall]
      exact .advanced hcall (advance_advanced codec failure log.rows c)
  | write snapshot =>
    cases hwrite : writeCircuitBreakerSnapshot codec log.rows snapshot with
    | error e =>
      simp only [hwrite]
      exact .idle
    | ok pair =>
      simp only [hwrite]
      exact .wrote (write_effect hwrite)
  | corrupt row schemaVersion status updatedAt payload => exact .corrupted fun _ => rfl

/-- the shared log in front of the `k`-th action, from an empty one -/
def logAt (actions : List (LogAction J)) (k : Nat) : SharedLog J :=
  before (SharedLog.step codec) SharedLog.empty actions k

theorem logAt_ordered (actions : List (LogAction J)) (k : Nat) :
    Ordered codec (logAt codec actions k) :=
  before_invariant (SharedLog.step codec) SharedLog.empty actions
    ⟨rfl, fun _ h => absurd h List.not_mem_nil⟩
    (fun log action h => (step_stepped codec log action).ordered h) k

theorem logAt_appends (log : SharedLog J) (action : LogAction J) :
    Appends (keys log.rows) (keys (log.step codec action).rows) :=
  (step_stepped codec log action).appends

/-- the snapshot at the head of the table can be restored at `now` -/
structure UsableHead (codec : SnapshotCodec J) (rows : List (SnapshotRow J)) (now : Int)
    (snapshot : StoredCircuitBreakerSnapshot J) (decoded : CircuitBreakerSnapshotV1) : Prop where
  stored : fetchLatestCircuitBreakerSnapshot codec rows = .ok (some snapshot)
  valid : Valid codec snapshot.payload now decoded
  past : decoded.restored.notAfter now

/-- between the two tables revision `r` of epoch `e` became the head, behind `r - 1` -/
structure Replaced (rows rows' : List (SnapshotRow J)) (r e : Nat) : Prop where
  head : fetchCircuitBreakerHeadMetadata rows' = some { stateRevision := r, recoveryEpoch := e }
  first : r = 1 → fetchCircuitBreakerHeadMetadata rows = none
  later : r ≠ 1 → ∃ head, fetchCircuitBreakerHeadMetadata rows = some head ∧
    head.stateRevision + 1 = r ∧ head.recoveryEpoch < e

/-- an incident that a restore returned after the `k`-th action -/
structure Persisted (codec : SnapshotCodec J) (rows : Nat → List (SnapshotRow J)) (k : Nat)
    (restore : DurableCircuitBreakerRestore) : Prop where
  isOpen : restore.outcome.state.status = .open
  stored : ∃ row ∈ rows (k + 1), row.stateRevision = restore.stateRevision ∧
    row.recoveryEpoch = restore.outcome.state.recoveryEpoch ∧ row.status = "OPEN" ∧
    ∃ payload, row.payload = some payload ∧
      codec.encode restore.outcome.state.durableSnapshotV1 = .ok payload
  replaced : ∃ j ≤ k, Replaced (rows j) (rows (j + 1)) restore.stateRevision
    restore.outcome.state.recoveryEpoch

/-- the breaker a restore hands to its caller, with a result or with an error -/
def resultOutcome : RestoreResult → CircuitBreakerOutcome
  | .ok restore => restore.outcome
  | .error e => e.outcome

/-- what the result of a restore that ended with the `k`-th action says -/
structure Truthful (codec : SnapshotCodec J) (rows : Nat → List (SnapshotRow J)) (k : Nat)
    (now : Int) (result : RestoreResult) : Prop where
  restored : ∀ restore, result = .ok restore → restore.disposition = .restored →
    ∃ snapshot decoded, UsableHead codec (rows k) now snapshot decoded ∧
      restore.stateRevision = snapshot.stateRevision ∧
      restore.outcome = CircuitBreakerOutcome.unchanged decoded.restored
  persisted : ∀ restore, result = .ok restore → restore.disposition = .failClosedPersisted →
    Persisted codec rows k restore
  guarded : (resultOutcome result).state.status ≠ .open →
    ∃ snapshot decoded, UsableHead codec (rows k) now snapshot decoded ∧
      (resultOutcome result).state = decoded.restored

/-- the revisions are written in order, once each, and stay -/
structure LogKept (codec : SnapshotCodec J) (actions : List (LogAction J)) (k : Nat) : Prop where
  revisions : (logAt codec actions k).rows.map SnapshotRow.stateRevision =
    List.range' 1 (logAt codec actions k).rows.length
  once : ∀ r, 1 ≤ r → r ≤ (logAt codec actions k).rows.length →
    ∃! j, j < k ∧ (logAt codec actions j).rows.length + 1 = r ∧
      (logAt codec actions (j + 1)).rows.length = r
  rows : ∀ j ≤ k, ∀ n row, (logAt codec actions j).rows[n]? = some row →
    (∀ m action, j ≤ m → m < k → actions[m]? = some action →
      ∀ schema status updatedAt payload,
        action ≠ .corrupt n schema status updatedAt payload) →
    (logAt codec actions k).rows[n]? = some row
  keys : ∀ j ≤ k, keys (logAt codec actions j).rows <+: keys (logAt codec actions k).rows

theorem length_keys {J : Type} (rows : List (SnapshotRow J)) : (keys rows).length = rows.length :=
  List.length_map ..

theorem logKept (actions : List (LogAction J)) (k : Nat) : LogKept codec actions k where
  revisions := (logAt_ordered codec actions k).numbered
  once := by
    intro r hr hle
    obtain ⟨n, rfl⟩ := Nat.exists_eq_add_of_le' hr
    rw [← length_keys] at hle
    obtain ⟨j, ⟨hj, hlen, hlen'⟩, huniq⟩ := exists_unique_grown (fun l => keys l.rows)
      (logAt_appends codec) (s := SharedLog.empty) rfl actions hle
    simp only [length_keys] at hlen hlen' huniq
    refine ⟨j, ⟨hj, congrArg Nat.succ hlen, hlen'⟩, ?_⟩
    rintro i ⟨hi, hi1, hi2⟩
    exact huniq i ⟨hi, Nat.succ.inj hi1, hi2⟩
  rows := by
    intro j hjk n row hrow
    induction k, hjk using Nat.le_induction with
    | base => exact fun _ => hrow
    | succ k hjk ih =>
      intro hhit
      have hk := ih fun m action hm hmk => hhit m action hm (Nat.lt_succ_of_lt hmk)
      cases haction : actions[k]? with
      | none =>
        rw [logAt, before_past _ _ haction]
        exact hk
      | some action =>
        rw [logAt, before_succ _ _ haction]
        exact (step_stepped codec _ action).row hk
          (hhit k action hjk (Nat.lt_succ_self k) haction)
  keys := fun _ hjk =>
    log_initial (fun l => keys l.rows) (logAt_appends codec) SharedLog.empty actions hjk

end

theorem Stepped.call {codec : SnapshotCodec J} (h : Stepped codec log action log') {i : Nat}
    {c' : RestoreCall J} (hc : log.calls[i]? = some c) (hc' : log'.calls[i]? = some c') :
    c' = c ∨ Advanced codec log.rows c (c', log'.rows) := by
  have same : log'.calls[i]? = log.calls[i]? → c' = c := by
    intro heq
    rw [heq, hc] at hc'
    exact (Option.some.inj hc').symm
  cases h with
  | idle => exact .inl (same rfl)
  | started =>
    obtain ⟨hi, -⟩ := List.getElem?_eq_some_iff.mp hc
    exact .inl (same (List.getElem?_append_left hi))
  | @advanced call failure moved next found effect =>
    by_cases hcall : call = i
    · subst hcall
      obtain ⟨hi, -⟩ := List.getElem?_eq_some_iff.mp hc
      rw [hc] at found
      cases found
      change (log.calls.set call next.1)[call]? = some c' at hc'
      rw [List.getElem?_set_self hi] at hc'
      cases hc'
      exact .inr effect
    · exact .inl (same (List.getElem?_set_ne hcall))
  | wrote effect => exact .inl (same rfl)
  | corrupted key => exact .inl (same rfl)

section
variable [DecidableEq J] (codec : SnapshotCodec J) {actions : List (LogAction J)}
  {outcome : CircuitBreakerOutcome}

theorem replaced_of_prepared {k : Nat} {head : Option CircuitBreakerHeadMetadata}
    {snapshot : NewCircuitBreakerSnapshot J} (hprepared : Prepared codec head outcome snapshot)
    (hknown : ∀ h, head = some h → h ∈ keys (logAt codec actions k).rows)
    (hstored : snapshot.target ∈ (logAt codec actions (k + 1)).rows) :
    ∃ j ≤ k, Replaced (logAt codec actions j).rows (logAt codec actions (j + 1)).rows
      (targetRevision snapshot.expectedHeadRevision) outcome.state.recoveryEpoch := by
  have hnum := fun i => (logAt_ordered codec actions i).numbered
  obtain ⟨n, hrev, hget⟩ := (hnum (k + 1)).key_at
    (List.mem_map_of_mem (f := SnapshotRow.key) hstored)
  change targetRevision snapshot.expectedHeadRevision = n + 1 at hrev
  obtain ⟨hn, -⟩ := List.getElem?_eq_some_iff.mp hget
  obtain ⟨j, hj, hwrote⟩ := exists_wrote (fun l => keys l.rows) (logAt_appends codec)
    (s := SharedLog.empty) rfl actions hn
  have hearlier : keys (logAt codec actions j).rows = _ := hwrote.earlier
  have hlater : keys (logAt codec actions (j + 1)).rows = _ := hwrote.later
  refine ⟨j, Nat.le_of_lt_succ hj, ?_, ?_, ?_⟩
  · rw [fetchCircuitBreakerHeadMetadata_last (hnum (j + 1)), hlater, List.getLast?_take,
      if_neg (Nat.succ_ne_zero n)]
    show ((keys (logAt codec actions (k + 1)).rows)[n]?).or _ = _
    rw [hget, Option.some_or, ← hprepared.recoveryEpoch]
    rfl
  · intro hfirst
    have hzero : n = 0 := by omega
    rw [fetchCircuitBreakerHeadMetadata_last (hnum j), hearlier, hzero]
    rfl
  · intro hnot
    cases hhead : head with
    | none =>
      rw [hprepared.expected, hhead] at hnot
      exact absurd rfl hnot
    | some h =>
      have hlog : h ∈ keys (logAt codec actions (k + 1)).rows :=
        ((logKept codec actions (k + 1)).keys k (Nat.le_succ k)).subset (hknown h hhead)
      obtain ⟨m, hm, hgetm⟩ := (hnum (k + 1)).key_at hlog
      rw [hprepared.expected, hhead] at hrev ⊢
      change h.stateRevision + 1 = n + 1 at hrev
      have hnm : n = m + 1 := by omega
      refine ⟨h, ?_, rfl, ?_⟩
      · rw [fetchCircuitBreakerHeadMetadata_last (hnum j), hearlier, List.getLast?_take, hnm,
          if_neg (Nat.succ_ne_zero m)]
        show ((keys (logAt codec actions (k + 1)).rows)[m]?).or _ = _
        rw [hgetm, Option.some_or]
      · have hepoch := hprepared.epoch
        rw [hhead] at hepoch
        change _ = h.recoveryEpoch + 1 at hepoch
        omega

theorem persisted_of_written {k : Nat} {c : RestoreCall J} {snapshot : NewCircuitBreakerSnapshot J}
    {written : WriteOutcome (StoredCircuitBreakerSnapshot J)} (reloads : Nat)
    (hc : Tracked codec (keys (logAt codec actions k).rows) c)
    (hphase : c.phase = .write outcome snapshot)
    (heffect : WriteEffect (logAt codec actions k).rows (logAt codec actions (k + 1)).rows
      snapshot written) :
    Persisted codec (fun j => (logAt codec actions j).rows) k
      { outcome
        stateRevision := written.record.stateRevision
        disposition := .failClosedPersisted
        casReloads := reloads } := by
  obtain ⟨head, hknown, hprepared⟩ := hc.prepared outcome snapshot hphase
  refine ⟨hprepared.isOpen, ⟨snapshot.target, heffect.stored, heffect.revision.symm,
    hprepared.recoveryEpoch, hprepared.status, snapshot.payload, rfl, hprepared.payload⟩, ?_⟩
  show ∃ j ≤ k, Replaced _ _ written.record.stateRevision _
  rw [heffect.revision]
  exact replaced_of_prepared codec hprepared hknown heffect.stored

theorem truthful_of_advanced {k : Nat} {c c' : RestoreCall J} {result : RestoreResult}
    (hc : Tracked codec (keys (logAt codec actions k).rows) c)
    (h : Advanced codec (logAt codec actions k).rows c (c', (logAt codec actions (k + 1)).rows))
    (hopen : ∀ r, c.phase ≠ .done r) (hdone : c'.phase = .done result) :
    Truthful codec (fun j => (logAt codec actions j).rows) k c.serverNowMs result := by
  have failed : ∀ {e : DurableCircuitBreakerRestoreError}, e.outcome.state.status = .open →
      Truthful codec (fun j => (logAt codec actions j).rows) k c.serverNowMs (.error e) := by
    intro e he
    exact ⟨fun _ h => (nomatch h), fun _ h => (nomatch h), fun h => absurd he h⟩
  generalize hrows : (logAt codec actions (k + 1)).rows = rows' at h
  cases h with
  | head phase => cases hdone
  | stale phase left => cases hdone
  | done phase => exact absurd phase (hopen _)
  | failedRead phase isOpen =>
    cases hdone
    exact failed isOpen
  | failedWrite phase carries =>
    cases hdone
    obtain ⟨_, -, hprepared⟩ := hc.prepared _ _ phase
    exact failed (by rw [carries]; exact hprepared.isOpen)
  | written phase effect =>
    cases hdone
    rw [← hrows] at effect
    have hpersisted := persisted_of_written codec c.casReloads hc phase effect
    refine ⟨?_, ?_, fun h => absurd hpersisted.isOpen h⟩
    · rintro restore heq hdisp
      cases heq
      cases hdisp
    · rintro restore heq -
      cases heq
      exact hpersisted
  | settled phase read settled =>
    cases settled with
    | write => cases hdone
    | failed isOpen =>
      cases hdone
      exact failed isOpen
    | @restored snapshot decoded hread valid =>
      cases hdone
      have husable : UsableHead codec (logAt codec actions k).rows c.serverNowMs snapshot decoded :=
        ⟨read snapshot hread, valid, valid.notAfter⟩
      refine ⟨?_, ?_, fun _ => ⟨snapshot, decoded, husable, rfl⟩⟩
      · rintro restore heq -
        cases heq
        exact ⟨snapshot, decoded, husable, rfl, rfl⟩
      · rintro restore heq hdisp
        cases heq
        cases hdisp

/-- Any number of restores and other writers share the log, one store operation at a time, while
payload columns may be corrupted: the revisions are 1, 2, 3, …, each written once and kept; a
restore writes at most once more than it may reload; and whatever result the `k`-th action brings
out is truthful about the log in front of and behind it. -/
theorem restores_share_one_log (actions : List (LogAction J)) (k : Nat) :
    LogKept codec actions k ∧
      (∀ c ∈ (logAt codec actions k).calls, c.writes ≤ c.maxCasReloads + 1) ∧
      ∀ (i : Nat) (c c' : RestoreCall J) (result : RestoreResult),
        (logAt codec actions k).calls[i]? = some c →
        (logAt codec actions (k + 1)).calls[i]? = some c' →
        (∀ r, c.phase ≠ .done r) → c'.phase = .done result →
        Truthful codec (fun j => (logAt codec actions j).rows) k c.serverNowMs result := by
  have hordered := logAt_ordered codec actions k
  refine ⟨logKept codec actions k, ?_, ?_⟩
  · intro c hc
    have htracked := hordered.tracked c hc
    exact Nat.le_trans htracked.writes (Nat.succ_le_succ htracked.reloads)
  · intro i c c' result hc hc' hopen hdone
    have same : c' ≠ c := by
      rintro rfl
      exact hopen result hdone
    cases haction : actions[k]? with
    | none =>
      rw [logAt, before_past _ _ haction] at hc'
      exact absurd (Option.some.inj (hc'.symm.trans hc)) same
    | some action =>
      have hstep : Stepped codec (logAt codec actions k) action (logAt codec actions (k + 1)) := by
        rw [logAt, logAt, before_succ _ _ haction]
        exact step_stepped codec _ action
      rcases hstep.call hc hc' with heq | hadvanced
      · exact absurd heq same
      · exact truthful_of_advanced codec (hordered.tracked c (List.mem_of_getElem? hc)) hadvanced
          hopen hdone

end

/-! ## two restores of an empty log -/

/-- a JSON layer that keeps a snapshot as it is -/
def plainCodec : SnapshotCodec CircuitBreakerSnapshotV1 where
  isObject := fun _ => true
  schemaVersion := fun snapshot => some snapshot.schemaVersion
  recoveryEpoch := fun snapshot => some snapshot.recoveryEpoch
  status := fun snapshot => some (statusName snapshot.status)
  decode := some
  encode := .ok

/-- both restores read the empty log before either of them writes -/
def twoRestores : List (LogAction CircuitBreakerSnapshotV1) :=
  [.restore 10 3, .restore 10 3, .advance 0 none, .advance 1 none, .advance 0 none,
    .advance 1 none, .advance 0 none, .advance 1 none]

/-- the incident that both of them write -/
def missingIncident : CircuitBreakerOutcome := failClosedCircuitBreakerRestore .missingSnapshot 10

def waitingCall : RestoreCall CircuitBreakerSnapshotV1 where
  serverNowMs := 10
  maxCasReloads := 3
  casReloads := 0
  writes := 0
  phase := .write missingIncident
    { expectedHeadRevision := none
      schemaVersion := circuitBreakerSnapshotSchemaVersionV1
      status := "OPEN"
      recoveryEpoch := 1
      updatedAt := 10
      payload := missingIncident.state.durableSnapshotV1 }

def foldedRestore : DurableCircuitBreakerRestore where
  outcome := missingIncident
  stateRevision := 1
  disposition := .failClosedPersisted
  casReloads := 0

/-- the second write is folded into the first, and its result speaks of the row that the first
stored -/
theorem restores_share_one_log_two :
    LogKept plainCodec twoRestores 7 ∧
      Truthful plainCodec (fun j => (logAt plainCodec twoRestores j).rows) 7 10
        (.ok foldedRestore) := by
  have h := restores_share_one_log plainCodec twoRestores 7
  refine ⟨h.1, h.2.2 1 waitingCall
    { waitingCall with writes := 1, phase := .done (.ok foldedRestore) } (.ok foldedRestore)
    (by decide +kernel) (by decide +kernel) ?_ rfl⟩
  intro r hphase
  cases hphase

end Sinan.Breaker
