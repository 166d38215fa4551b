import Sinan.Events.Log
import Sinan.Lib.Broadcast
import Sinan.Lib.Run

/-!
# Event stream: publish, subscribe, receive

The manager writes an event to the log and then offers it to the live subscribers, under one lock.
A subscription first takes its place in the live channel, then reads the log up to a high-water
mark, and delivers the replay before it goes live.

`World` is the manager with its log and one subscription, cut into the steps that other tasks can
come between: every `await` of `publish` and of `subscribe`, and every turn of the loop of `recv`.
Publishers that wait for the lock hold nothing, so any number of them is the one that has it.
-/

namespace Sinan.Events

open Lib Store

variable {P : Type}

/-! ## the subscription request -/

structure EventStreamManagerConfig where
  liveCapacity : Nat
  replayLimit : Nat
  deriving DecidableEq

structure EventSubscriptionRequest where
  topics : List EventStreamTopic
  /-- narrows the scope of the principal to one account -/
  accountId : Option AccountId
  lastEventId : Option String
  deriving DecidableEq

inductive EventStreamManagerError where
  | invalidConfiguration (reason : String)
  | emptyTopics
  | duplicateTopic (topic : EventStreamTopic)
  | unauthorizedAccount (accountId : AccountId)
  | emptyCursor
  | cursorExpired (eventId : String)
  | replayLimitExceeded (limit : Nat)
  | store (error : StoreError)
  deriving DecidableEq

def EventReplayError.toManager : EventReplayError → EventStreamManagerError
  | .cursorExpired eventId => .cursorExpired eventId
  | .invalidLimit => .invalidConfiguration "replay_limit must be greater than zero"
  | .store error => .store error

/-- the checks of `EventStreamManager::new` -/
def EventStreamManagerConfig.validate (config : EventStreamManagerConfig) :
    Except EventStreamManagerError Unit := do
  reject (config.liveCapacity = 0)
    (.invalidConfiguration "live_capacity must be greater than zero")
  reject (config.replayLimit = 0)
    (.invalidConfiguration "replay_limit must be greater than zero")

/-- the first topic that has been seen before -/
def repeatedTopic (seen : List EventStreamTopic) : List EventStreamTopic → Option EventStreamTopic
  | [] => none
  | topic :: topics =>
    if topic ∈ seen then some topic else repeatedTopic (topic :: seen) topics

def subscriptionFilter (request : EventSubscriptionRequest)
    (principalAccounts : AuthorizedAccountScope) :
    Except EventStreamManagerError EventStreamFilter := do
  reject (request.topics.isEmpty = true) .emptyTopics
  match repeatedTopic [] request.topics with
  | some topic => .error (.duplicateTopic topic)
  | none =>
    reject (request.lastEventId.any String.isEmpty = true) .emptyCursor
    match request.accountId with
    | some accountId =>
      if principalAccounts.contains accountId then
        return { topics := request.topics, accountScope := ⟨[accountId]⟩ }
      else .error (.unauthorizedAccount accountId)
    | none => return { topics := request.topics, accountScope := principalAccounts }

/-! ## the subscription -/

inductive SubscriptionCloseReason where
  | slowConsumer (skipped : Nat)
  | managerClosed
  deriving DecidableEq

inductive SubscriptionOutcome (P : Type) where
  | event (record : EventStreamRecord P)
  | closed (reason : SubscriptionCloseReason)
  deriving DecidableEq

structure EventSubscription (P : Type) where
  replay : List (EventStreamRecord P)
  /-- position of the live receiver -/
  live : Nat
  filter : EventStreamFilter
  highWater : Nat
  lastDeliveredSequence : Nat
  terminal : Option SubscriptionCloseReason
  deriving DecidableEq

/-- the end of `subscribe`: the replay window becomes a subscription -/
def openSubscription (window : EventReplayWindow P) (live : Nat) (filter : EventStreamFilter)
    (replayLimit : Nat) : Except EventStreamManagerError (EventSubscription P) :=
  if window.hasMore then .error (.replayLimitExceeded replayLimit)
  else
    .ok { replay := window.records
          live, filter
          highWater := window.highWater.getD 0
          lastDeliveredSequence := 0
          terminal := none }

/-- a live record the loop of `recv` passes over -/
def EventSubscription.skips (s : EventSubscription P) (r : EventStreamRecord P) : Bool :=
  decide (r.streamSequence ≤ s.highWater) || decide (r.streamSequence ≤ s.lastDeliveredSequence) ||
    !s.filter.matches r

/-- One turn of `recv`: the answer, if the turn gives one, or nothing at all while `recv` waits.
The terminal reason and the replay are looked at before the loop; on later turns both are empty. -/
def EventSubscription.recv (s : EventSubscription P) (live : Broadcast (EventStreamRecord P)) :
    Option (EventSubscription P × Option (SubscriptionOutcome P)) :=
  match s.terminal with
  | some reason => some (s, some (.closed reason))
  | none =>
    match s.replay with
    | record :: replay =>
      some ({ s with replay, lastDeliveredSequence := record.streamSequence },
        some (.event record))
    | [] =>
      match live.recv s.live with
      | none => none
      | some (.value record, position) =>
        if s.skips record then some ({ s with live := position }, none)
        else
          some ({ s with live := position, lastDeliveredSequence := record.streamSequence },
            some (.event record))
      | some (.lagged skipped, position) =>
        let reason := .slowConsumer skipped
        some ({ s with live := position, terminal := some reason }, some (.closed reason))
      | some (.closed, position) =>
        some ({ s with live := position, terminal := some .managerClosed },
          some (.closed .managerClosed))

/-! ## the world -/

/-- where the holder of the publish lock stands -/
inductive Publishing (P : Type) where
  | idle
  | locked (event : NewEventStreamRecord P)
  | appended (outcome : StoreCheck (WriteOutcome (EventStreamRecord P)))
  deriving DecidableEq

inductive Subscriber (P : Type) where
  | absent
  /-- between `live.subscribe()` and the replay read -/
  | listening (live : Nat) (filter : EventStreamFilter) (lastEventId : Option String)
  | refused (error : EventStreamManagerError)
  | subscribed (lastEventId : Option String) (subscription : EventSubscription P)
  deriving DecidableEq

structure World (P : Type) where
  log : EventStreamLog P
  live : Broadcast (EventStreamRecord P)
  replayLimit : Nat
  publishing : Publishing P
  subscriber : Subscriber P
  /-- what the calls of `recv` have answered, in order -/
  answers : List (SubscriptionOutcome P)

/-- a manager over a log, before anybody has published or subscribed; the ring may have more slots
than the configured capacity -/
def World.start (config : EventStreamManagerConfig) (slots : Nat) (log : EventStreamLog P) :
    World P where
  log := log
  live := .new (max config.liveCapacity slots)
  replayLimit := config.replayLimit
  publishing := .idle
  subscriber := .absent
  answers := []

/-- `EventStreamManager::new` -/
def World.new (config : EventStreamManagerConfig) (slots : Nat) (log : EventStreamLog P) :
    Except EventStreamManagerError (World P) := do
  config.validate
  return World.start config slots log

inductive Step (P : Type) where
  /-- a waiting publisher gets the lock -/
  | lock (event : NewEventStreamRecord P)
  /-- its append commits or fails -/
  | append (skipped : Nat)
  /-- it fans the record out, returns and releases the lock -/
  | fanOut
  /-- its future is dropped at the `await` it stands at, and the lock with it -/
  | cancel
  | prune (policy : EventRetentionPolicy)
  | subscribe (request : EventSubscriptionRequest) (principalAccounts : AuthorizedAccountScope)
  | replay
  | recv
  /-- the manager is dropped -/
  | close

/-- the fan-out of one outcome: only an inserted record is sent -/
def fanOut (live : Broadcast (EventStreamRecord P)) :
    StoreCheck (WriteOutcome (EventStreamRecord P)) → Broadcast (EventStreamRecord P)
  | .ok (.inserted record) => live.send record
  | _ => live

/-- the holder's append: the outcome and the log it leaves -/
def World.append [DecidableEq P] (w : World P) (event : NewEventStreamRecord P) (skipped : Nat) :
    World P :=
  match appendEventStreamRecord w.log event skipped with
  | .ok (outcome, log) => { w with log, publishing := .appended (.ok outcome) }
  | .error e => { w with publishing := .appended (.error e) }

def World.subscribe (w : World P) (request : EventSubscriptionRequest)
    (principalAccounts : AuthorizedAccountScope) : World P :=
  match subscriptionFilter request principalAccounts with
  | .ok filter =>
    { w with subscriber := .listening w.live.subscribe filter request.lastEventId }
  | .error e => { w with subscriber := .refused e }

def World.replay (w : World P) (live : Nat) (filter : EventStreamFilter)
    (lastEventId : Option String) : World P :=
  match replayEventStream w.log lastEventId filter w.replayLimit with
  | .error e => { w with subscriber := .refused e.toManager }
  | .ok window =>
    match openSubscription window live filter w.replayLimit with
    | .error e => { w with subscriber := .refused e }
    | .ok subscription => { w with subscriber := .subscribed lastEventId subscription }

def World.recv (w : World P) (lastEventId : Option String) (subscription : EventSubscription P) :
    World P :=
  match subscription.recv w.live with
  | none => w
  | some (subscription, answer) =>
    { w with
      subscriber := .subscribed lastEventId subscription
      answers := w.answers ++ answer.toList }

/-- one step; a step that is not enabled changes nothing -/
def World.step [DecidableEq P] (w : World P) : Step P → World P
  | .lock event =>
    match w.publishing with
    | .idle => if w.live.closed then w else { w with publishing := .locked event }
    | _ => w
  | .append skipped =>
    match w.publishing with
    | .locked event => w.append event skipped
    | _ => w
  | .fanOut =>
    match w.publishing with
    | .appended outcome => { w with live := fanOut w.live outcome, publishing := .idle }
    | _ => w
  | .cancel => { w with publishing := .idle }
  | .prune policy =>
    match pruneEventStream w.log policy with
    | .ok (_, log) => { w with log }
    | .error _ => w
  | .subscribe request principalAccounts =>
    match w.subscriber with
    | .absent => if w.live.closed then w else w.subscribe request principalAccounts
    | _ => w
  | .replay =>
    match w.subscriber with
    | .listening live filter lastEventId => w.replay live filter lastEventId
    | _ => w
  | .recv =>
    match w.subscriber with
    | .subscribed lastEventId subscription => w.recv lastEventId subscription
    | _ => w
  | .close =>
    -- a publish or subscribe under way borrows the manager
    match w.publishing, w.subscriber with
    | .idle, .listening _ _ _ => w
    | .idle, _ => { w with live := { w.live with closed := true } }
    | _, _ => w

/-- the records the subscription has delivered -/
def World.delivered (w : World P) : List (EventStreamRecord P) :=
  w.answers.filterMap fun
    | .event record => some record
    | .closed _ => none

end Sinan.Events
