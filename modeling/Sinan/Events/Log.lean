import Sinan.Lib.Ascending
import Sinan.Store.Graph
import Sinan.Types.Delivery

/-!
# Event stream: the durable log

The table `event_stream_log` with its three operations: append, replay from a cursor, prune.  The
table is kept in the order of `stream_sequence` together with the last sequence it ever assigned,
and carries the constraints of its schema, so that a log that breaks them cannot be built.  Stored
payloads are held decoded.
-/

namespace Sinan.Events

open Lib Store

inductive EventStreamTopic where
  | marketSnapshot
  | riskSummary
  | executionSummary
  | systemEvent
  | deadletterSummary
  deriving DecidableEq

def EventStreamTopic.asStr : EventStreamTopic → String
  | .marketSnapshot => "market.snapshot"
  | .riskSummary => "risk.summary"
  | .executionSummary => "execution.summary"
  | .systemEvent => "system.event"
  | .deadletterSummary => "deadletter.summary"

theorem asStr_inj {a b : EventStreamTopic} : a.asStr = b.asStr ↔ a = b := by
  constructor
  · intro h
    cases a <;> cases b <;> first | rfl | exact absurd h (by decide)
  · rintro rfl
    rfl

/-- a summary event ready to be appended -/
structure NewEventStreamRecord (P : Type) where
  eventId : String
  topic : EventStreamTopic
  /-- `none` is a global event, visible to every authorized subscriber -/
  accountId : Option AccountId
  eventType : String
  payload : P
  createdAt : Int
  deriving DecidableEq

structure EventStreamRecord (P : Type) where
  streamSequence : Nat
  eventId : String
  topic : EventStreamTopic
  accountId : Option AccountId
  eventType : String
  payload : P
  createdAt : Int
  deriving DecidableEq

/-- the account set of a principal; only membership and emptiness are read -/
structure AuthorizedAccountScope where
  accountIds : List AccountId
  deriving DecidableEq

def AuthorizedAccountScope.isEmpty (scope : AuthorizedAccountScope) : Bool :=
  scope.accountIds.isEmpty

def AuthorizedAccountScope.contains (scope : AuthorizedAccountScope) (accountId : AccountId) :
    Bool :=
  scope.accountIds.contains accountId

structure EventStreamFilter where
  topics : List EventStreamTopic
  accountScope : AuthorizedAccountScope
  deriving DecidableEq

def EventStreamFilter.isEmpty (f : EventStreamFilter) : Bool := f.topics.isEmpty

/-- one cursor-exclusive replay snapshot -/
structure EventReplayWindow (P : Type) where
  highWater : Option Nat
  records : List (EventStreamRecord P)
  /-- more matching records existed than the requested limit -/
  hasMore : Bool
  deriving DecidableEq

/-- the two bounds are deletion conditions, and one is enough to delete -/
structure EventRetentionPolicy where
  retainLatest : Option Nat
  createdAtOrAfter : Option Int
  deriving DecidableEq

structure EventRetentionOutcome where
  deleted : Nat
  oldestRemainingEventId : Option String
  oldestRemainingSequence : Option Nat
  deriving DecidableEq

inductive EventReplayError where
  | cursorExpired (eventId : String)
  | invalidLimit
  | store (error : StoreError)
  deriving DecidableEq

/-! ## visibility -/

def isGlobalTopic : EventStreamTopic → Bool
  | .systemEvent | .deadletterSummary => true
  | _ => false

def eventIsVisible (topic : EventStreamTopic) (accountId : Option AccountId)
    (scope : AuthorizedAccountScope) : Bool :=
  match accountId with
  | some accountId => scope.contains accountId
  | none => isGlobalTopic topic

variable {P : Type}

/-- the filter of the live side -/
def EventStreamFilter.matches (f : EventStreamFilter) (r : EventStreamRecord P) : Bool :=
  f.topics.contains r.topic && eventIsVisible r.topic r.accountId f.accountScope

/-- The filter of the replay side: the `WHERE` clause over the text columns.  `NULL IN (…)` is not
true, and the account alternative is left out for an empty scope. -/
def EventStreamFilter.selects (f : EventStreamFilter) (r : EventStreamRecord P) : Bool :=
  (f.topics.map EventStreamTopic.asStr).contains r.topic.asStr &&
    ((r.accountId.isNone && ["system.event", "deadletter.summary"].contains r.topic.asStr) ||
      (!f.accountScope.isEmpty && r.accountId.any f.accountScope.contains))

theorem selects_eq_matches (f : EventStreamFilter) (r : EventStreamRecord P) :
    f.selects r = f.matches r := by
  have htopics : (f.topics.map EventStreamTopic.asStr).contains r.topic.asStr
      = f.topics.contains r.topic := by
    apply Bool.eq_iff_iff.mpr
    rw [List.contains_iff_mem, List.contains_iff_mem]
    constructor
    · intro h
      obtain ⟨topic, htopic, htext⟩ := List.mem_map.mp h
      rw [← asStr_inj.mp htext]
      exact htopic
    · exact List.mem_map_of_mem
  unfold EventStreamFilter.selects EventStreamFilter.matches
  rw [htopics]
  congr 1
  unfold eventIsVisible
  cases r.accountId with
  | none =>
    show ((true && _) || (_ && false)) = _
    rw [Bool.and_false, Bool.or_false, Bool.true_and]
    cases r.topic <;> rfl
  | some accountId =>
    show ((false && _) || (_ && f.accountScope.contains accountId)) = _
    rw [Bool.false_and, Bool.false_or]
    -- an empty scope contains nothing, so the alternative it leaves out is false
    unfold AuthorizedAccountScope.isEmpty AuthorizedAccountScope.contains
    cases f.accountScope.accountIds <;> rfl

/-! ## the table -/

/-- `event_stream_log`: sequences grow, identities are unique, and `AUTOINCREMENT` remembers the
largest sequence ever assigned -/
structure EventStreamLog (P : Type) where
  records : List (EventStreamRecord P)
  lastSequence : Nat
  ascending : Ascending EventStreamRecord.streamSequence records
  assigned : ∀ r ∈ records, r.streamSequence ≤ lastSequence
  unique : (records.map EventStreamRecord.eventId).Nodup

def EventStreamLog.empty : EventStreamLog P where
  records := []
  lastSequence := 0
  ascending := List.Pairwise.nil
  assigned := fun _ h => absurd h List.not_mem_nil
  unique := List.nodup_nil

/-- the row of one event id -/
def EventStreamLog.fetch (log : EventStreamLog P) (eventId : String) :
    Option (EventStreamRecord P) :=
  log.records.find? fun r => r.eventId == eventId

/-- `SELECT MAX(stream_sequence)` -/
def EventStreamLog.highWater (log : EventStreamLog P) : Option Nat :=
  (log.records.map EventStreamRecord.streamSequence).max?

/-! ## append -/

/-- the `INSERT` of a row above every sequence assigned so far -/
def EventStreamLog.insert (log : EventStreamLog P) (r : EventStreamRecord P)
    (hnew : log.lastSequence < r.streamSequence) (hid : log.fetch r.eventId = none) :
    EventStreamLog P where
  records := log.records ++ [r]
  lastSequence := r.streamSequence
  ascending := log.ascending.snoc fun q hq => Nat.lt_of_le_of_lt (log.assigned q hq) hnew
  assigned := by
    intro q hq
    rcases List.mem_append.mp hq with hq | hq
    · exact Nat.le_of_lt (Nat.lt_of_le_of_lt (log.assigned q hq) hnew)
    · rw [List.mem_singleton.mp hq]
  unique := by
    rw [List.map_append]
    refine List.nodup_append.mpr ⟨log.unique, List.nodup_singleton _, ?_⟩
    rintro _ hx _ hy rfl
    obtain ⟨q, hq, hid'⟩ := List.mem_map.mp hx
    have hnot := List.find?_eq_none.mp hid q hq
    exact hnot (beq_iff_eq.mpr (hid'.trans (List.mem_singleton.mp hy)))

def invalidEvent (eventId reason : String) : StoreError :=
  .invalidRecord "event_stream" eventId reason

def validateNewEvent (event : NewEventStreamRecord P) : StoreCheck Unit := do
  reject (event.eventId.isEmpty = true) (invalidEvent event.eventId "event_id must not be empty")
  reject (event.eventType.isEmpty = true) (invalidEvent event.eventId "event_type must not be empty")
  reject (event.accountId.any String.isEmpty = true)
    (invalidEvent event.eventId "account_id must be absent or non-empty")
  reject (event.accountId.isNone = true ∧ isGlobalTopic event.topic = false)
    (invalidEvent event.eventId
      ("topic " ++ event.topic.asStr ++ " requires a non-empty account_id"))

def sameEventStreamRecord [DecidableEq P] (existing : EventStreamRecord P)
    (incoming : NewEventStreamRecord P) : Bool :=
  existing.eventId == incoming.eventId && decide (existing.topic = incoming.topic) &&
  existing.accountId == incoming.accountId && existing.eventType == incoming.eventType &&
  decide (existing.payload = incoming.payload) && existing.createdAt == incoming.createdAt

def NewEventStreamRecord.at (event : NewEventStreamRecord P) (streamSequence : Nat) :
    EventStreamRecord P where
  streamSequence := streamSequence
  eventId := event.eventId
  topic := event.topic
  accountId := event.accountId
  eventType := event.eventType
  payload := event.payload
  createdAt := event.createdAt

/-- `append_event_stream_record_on`.  `AUTOINCREMENT` promises a sequence above all earlier ones and
nothing more: `skipped` numbers were lost to inserts that failed. -/
def appendEventStreamRecord [DecidableEq P] (log : EventStreamLog P)
    (event : NewEventStreamRecord P) (skipped : Nat) :
    StoreCheck (WriteOutcome (EventStreamRecord P) × EventStreamLog P) := do
  validateNewEvent event
  match h : log.fetch event.eventId with
  | some stored =>
    if sameEventStreamRecord stored event then .ok (.duplicate stored, log)
    else .error (.identityConflict "event_stream" event.eventId)
  | none =>
    let record := event.at (log.lastSequence + skipped + 1)
    if (log.lastSequence + skipped + 1 : Int) ≤ i64Max then
      .ok (.inserted record, log.insert record
        (Nat.lt_succ_of_le (Nat.le_add_right log.lastSequence skipped)) h)
    else .error .database

/-! ## replay -/

def replayEventStream (log : EventStreamLog P) (lastEventId : Option String)
    (filter : EventStreamFilter) (limit : Nat) :
    Except EventReplayError (EventReplayWindow P) :=
  if limit = 0 then .error .invalidLimit
  else match lastEventId with
    | none => .ok { highWater := log.highWater, records := [], hasMore := false }
    | some lastEventId =>
      match (log.fetch lastEventId).filter
          (fun r => eventIsVisible r.topic r.accountId filter.accountScope), log.highWater with
      | some cursor, some highWater =>
        if filter.isEmpty = true ∨ cursor.streamSequence ≥ highWater then
          .ok { highWater := some highWater, records := [], hasMore := false }
        else if limit + 1 > u64Max then
          .error (.store (.invalidInteger "event_replay_limit" limit))
        else if (limit + 1 : Int) > i64Max then
          .error (.store (.invalidInteger "event_replay_limit" (limit + 1)))
        else
          let rows := (log.records.filter fun r => filter.selects r &&
            decide (cursor.streamSequence < r.streamSequence ∧ r.streamSequence ≤ highWater)).take
              (limit + 1)
          let hasMore := decide (rows.length > limit)
          .ok { highWater := some highWater
                records := if hasMore then rows.dropLast else rows
                hasMore }
      | _, _ => .error (.cursorExpired lastEventId)

/-! ## prune -/

def validateRetentionPolicy (policy : EventRetentionPolicy) : StoreCheck Unit := do
  reject (policy.retainLatest = none ∧ policy.createdAtOrAfter = none)
    (.invalidRecord "event_retention_policy" "event_stream"
      "at least one retention bound is required")
  reject (policy.retainLatest = some 0) (.invalidSequence "event_retention_retain_latest")

/-- `ORDER BY stream_sequence DESC LIMIT 1 OFFSET retain_latest` -/
def sequenceCutoff (log : EventStreamLog P) (policy : EventRetentionPolicy) : Option Nat :=
  policy.retainLatest.bind fun retainLatest =>
    log.records.reverse[retainLatest]?.map EventStreamRecord.streamSequence

/-- the condition of the `DELETE` -/
def prunes (log : EventStreamLog P) (policy : EventRetentionPolicy) (r : EventStreamRecord P) :
    Bool :=
  (sequenceCutoff log policy).any (fun cutoff => decide (r.streamSequence ≤ cutoff)) ||
    policy.createdAtOrAfter.any (fun createdAt => decide (r.createdAt < createdAt))

/-- the `DELETE` keeps the order and the identities of what it leaves -/
def EventStreamLog.delete (log : EventStreamLog P) (deletes : EventStreamRecord P → Bool) :
    EventStreamLog P where
  records := log.records.filter fun r => !deletes r
  lastSequence := log.lastSequence
  ascending := log.ascending.sublist List.filter_sublist
  assigned := fun r hr => log.assigned r (List.mem_of_mem_filter hr)
  unique := log.unique.sublist (List.filter_sublist.map _)

def pruneEventStream (log : EventStreamLog P) (policy : EventRetentionPolicy) :
    StoreCheck (EventRetentionOutcome × EventStreamLog P) := do
  validateRetentionPolicy policy
  reject (policy.retainLatest.any (fun n => decide ((n : Int) > i64Max)) = true)
    (.invalidInteger "event_retention_retain_latest" (policy.retainLatest.getD 0))
  let remaining := log.delete (prunes log policy)
  return ({ deleted := log.records.countP (prunes log policy)
            oldestRemainingEventId := remaining.records.head?.map EventStreamRecord.eventId
            oldestRemainingSequence :=
              remaining.records.head?.map EventStreamRecord.streamSequence }, remaining)

/-! ## what the operations did -/

/-- an inserted record is new in every respect and goes to the end -/
structure Inserted (log : EventStreamLog P) (event : NewEventStreamRecord P)
    (record : EventStreamRecord P) (log' : EventStreamLog P) : Prop where
  new : log.lastSequence < record.streamSequence
  fresh : log.fetch record.eventId = none
  built : record = event.at record.streamSequence
  records : log'.records = log.records ++ [record]
  last : log'.lastSequence = record.streamSequence

variable {log : EventStreamLog P} {log' : EventStreamLog P} {event : NewEventStreamRecord P}
  {record : EventStreamRecord P}

theorem append_inserted [DecidableEq P] {skipped : Nat}
    (h : appendEventStreamRecord log event skipped = .ok (.inserted record, log')) :
    Inserted log event record log' := by
  obtain ⟨⟨⟩, -, h⟩ := bind_ok.mp h
  split at h
  · split at h
    · exact (nomatch h)
    · exact (nomatch h)
  case h_2 hfresh =>
    dsimp only at h
    split at h
    · obtain ⟨hrecord, hlog⟩ := Prod.mk.inj (Except.ok.inj h)
      obtain rfl := WriteOutcome.inserted.inj hrecord
      subst hlog
      exact ⟨Nat.lt_succ_of_le (Nat.le_add_right _ _), hfresh, rfl, rfl, rfl⟩
    · exact (nomatch h)

theorem append_duplicate [DecidableEq P] {skipped : Nat}
    (h : appendEventStreamRecord log event skipped = .ok (.duplicate record, log')) :
    log' = log := by
  obtain ⟨⟨⟩, -, h⟩ := bind_ok.mp h
  split at h
  · split at h
    · exact (Prod.mk.inj (Except.ok.inj h)).2.symm
    · exact (nomatch h)
  · dsimp only at h
    split at h
    · exact (nomatch (Prod.mk.inj (Except.ok.inj h)).1)
    · exact (nomatch h)

theorem prune_ok {policy : EventRetentionPolicy} {outcome : EventRetentionOutcome}
    (h : pruneEventStream log policy = .ok (outcome, log')) :
    log' = log.delete (prunes log policy) := by
  obtain ⟨⟨⟩, -, h⟩ := bind_ok.mp h
  obtain ⟨⟨⟩, -, h⟩ := bind_ok.mp h
  exact (Prod.mk.inj (pure_ok.mp h)).2.symm

theorem highWater_some {high : Nat} (h : log.highWater = some high) :
    (∃ r ∈ log.records, r.streamSequence = high) ∧ ∀ r ∈ log.records, r.streamSequence ≤ high := by
  obtain ⟨hmem, hmax⟩ := List.max?_eq_some_iff.mp h
  exact ⟨List.mem_map.mp hmem, fun r hr => hmax _ (List.mem_map_of_mem hr)⟩

theorem highWater_none (h : log.highWater = none) : log.records = [] :=
  List.map_eq_nil_iff.mp (List.max?_eq_none_iff.mp h)

theorem fetch_some {eventId : String} {r : EventStreamRecord P} (h : log.fetch eventId = some r) :
    r ∈ log.records ∧ r.eventId = eventId :=
  find_key h

/-- the records a replay from `cursor` is asked for -/
def EventStreamLog.window (log : EventStreamLog P) (filter : EventStreamFilter)
    (cursor high : Nat) : List (EventStreamRecord P) :=
  log.records.filter fun r => filter.matches r &&
    decide (cursor < r.streamSequence ∧ r.streamSequence ≤ high)

theorem replay_complete {lastEventId : String} {filter : EventStreamFilter} {limit : Nat}
    {window : EventReplayWindow P}
    (h : replayEventStream log (some lastEventId) filter limit = .ok window)
    (hmore : window.hasMore = false) :
    ∃ cursor high, log.fetch lastEventId = some cursor ∧ log.highWater = some high ∧
      window.highWater = some high ∧
      window.records = log.window filter cursor.streamSequence high := by
  unfold replayEventStream at h
  split at h
  · exact (nomatch h)
  · dsimp only at h
    split at h
    case h_1 cursor high hcursor hhigh =>
      have hfetch : log.fetch lastEventId = some cursor :=
        (Option.filter_eq_some_iff.mp hcursor).1
      refine ⟨cursor, high, hfetch, hhigh, ?_⟩
      split at h
      case isTrue hnone =>
        obtain rfl := Except.ok.inj h
        refine ⟨rfl, (List.filter_eq_nil_iff.mpr fun r hr => ?_).symm⟩
        rcases hnone with hempty | hpast
        · have htopics : filter.topics = [] := List.isEmpty_iff.mp hempty
          unfold EventStreamFilter.matches
          rw [htopics]
          exact Bool.false_ne_true
        · intro hin
          have hbetween := of_decide_eq_true (Bool.and_eq_true_iff.mp hin).2
          omega
      · split at h
        · exact (nomatch h)
        · split at h
          · exact (nomatch h)
          · have hwindow := Except.ok.inj h
            rw [← hwindow] at hmore ⊢
            have hshort := of_decide_eq_false hmore
            dsimp only at hmore ⊢
            rw [hmore]
            refine ⟨rfl, ?_⟩
            show List.take (limit + 1) _ = _
            simp only [selects_eq_matches] at hshort ⊢
            rw [List.length_take] at hshort
            exact List.take_of_length_le (by omega)
    case h_2 => exact (nomatch h)

theorem replay_expired {lastEventId : String} {limit : Nat} (h : log.fetch lastEventId = none)
    (filter : EventStreamFilter) (hlimit : 0 < limit) :
    replayEventStream log (some lastEventId) filter limit
      = .error (.cursorExpired lastEventId) := by
  unfold replayEventStream
  rw [if_neg (Nat.ne_of_gt hlimit)]
  dsimp only
  rw [h]
  rfl

/-- a global event of the source's tests -/
def systemEvent (eventId : String) (createdAt : Int) : NewEventStreamRecord String where
  eventId := eventId
  topic := .systemEvent
  accountId := none
  eventType := "test"
  payload := "{}"
  createdAt := createdAt

end Sinan.Events
