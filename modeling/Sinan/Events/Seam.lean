import Sinan.Events.Manager

/-!
# Event stream: the seam between replay and live delivery

While the fan-out of every inserted record happens, the channel together with the record that is
about to be sent (`World.queue`) is everything appended since the manager started, in order.  A
subscription takes a place in that queue before it reads its high-water mark, so every record stored
above the mark stands behind its place, and `Delivering` follows it from there: what it has given
live and what of the queue it still keeps make up what it must give.

`Delivering` needs no more than that no fan-out is skipped, so it holds with prunes and with publishes
dropped anywhere else.
-/

namespace Sinan.Events

open Lib Store

variable {P : Type}

/-! ## the queue -/

/-- the record that is in the log and not yet in the channel -/
def Publishing.pending : Publishing P → List (EventStreamRecord P)
  | .appended (.ok (.inserted record)) => [record]
  | _ => []

/-- what the channel has been given, with what it is about to be given -/
def World.queue (w : World P) : List (EventStreamRecord P) :=
  w.live.sent ++ w.publishing.pending

/-- the step does not drop a publish between its commit and its fan-out -/
def FanOutKept (w : World P) : Step P → Prop
  | .cancel => w.publishing.pending = []
  | _ => True

instance FanOutKept.decidable [DecidableEq P] (w : World P) :
    (step : Step P) → Decidable (FanOutKept w step)
  | .cancel => inferInstanceAs (Decidable (w.publishing.pending = []))
  | .lock _ | .append _ | .fanOut | .prune _ | .subscribe _ _ | .replay | .recv | .close =>
    isTrue trivial

/-- how the steps of publishers and of retention move log and queue; rows are deleted only where
`pruning` is true -/
inductive Moved (pruning : Prop) (w w' : World P) : Prop
  | stays (queue : w'.queue = w.queue) (sent : w.live.sent <+: w'.live.sent)
      (records : w'.log.records = w.log.records) (last : w'.log.lastSequence = w.log.lastSequence)
  | appends (record : EventStreamRecord P) (event : NewEventStreamRecord P)
      (inserted : Inserted w.log event record w'.log) (queue : w'.queue = w.queue ++ [record])
      (sent : w.live.sent <+: w'.live.sent)
  | prunes (allowed : pruning) (policy : EventRetentionPolicy)
      (log : w'.log = w.log.delete (prunes w.log policy)) (queue : w'.queue = w.queue)
      (sent : w.live.sent <+: w'.live.sent)

theorem moved_append [DecidableEq P] {w : World P} {event : NewEventStreamRecord P} {skipped : Nat}
    (hlocked : w.publishing = .locked event) : Moved False w (w.append event skipped) := by
  have hqueue : w.queue = w.live.sent := by
    unfold World.queue
    rw [hlocked]
    exact List.append_nil _
  unfold World.append
  split
  case h_1 outcome log happend =>
    cases outcome with
    | inserted record =>
      refine .appends record event (append_inserted happend) ?_ (List.prefix_refl _)
      rw [hqueue]
      rfl
    | duplicate record =>
      refine .stays ?_ (List.prefix_refl _) ?_ ?_
      · rw [hqueue]
        exact List.append_nil _
      · rw [append_duplicate happend]
      · rw [append_duplicate happend]
  case h_2 e he =>
    refine .stays ?_ (List.prefix_refl _) rfl rfl
    rw [hqueue]
    exact List.append_nil _

theorem moved_fanOut {w : World P} {outcome : StoreCheck (WriteOutcome (EventStreamRecord P))}
    (happended : w.publishing = .appended outcome) :
    Moved False w { w with live := fanOut w.live outcome, publishing := .idle } := by
  have hqueue : w.queue = w.live.sent ++ (Publishing.appended outcome).pending := by
    unfold World.queue
    rw [happended]
  unfold fanOut
  split
  case h_1 record =>
    refine .stays ?_ ⟨[record], rfl⟩ rfl rfl
    rw [hqueue]
    exact List.append_nil _
  case h_2 hother =>
    refine .stays ?_ (List.prefix_refl _) rfl rfl
    rw [hqueue]
    have hnone : (Publishing.appended outcome).pending = [] := by
      unfold Publishing.pending
      split
      case h_1 record heq => exact absurd (Publishing.appended.inj heq) (hother record)
      case h_2 => rfl
    rw [hnone]
    rfl

/-! ## what one subscription must give -/

/-- the live records a subscription is for -/
def keeps (filter : EventStreamFilter) (highWater : Nat) (r : EventStreamRecord P) : Bool :=
  filter.matches r && decide (highWater < r.streamSequence)

/-- The subscription holds `place` in the queue since before its high-water read.  It has replayed
`replayed`, given `live` from the channel, and then answered `closed`. -/
structure Delivering (w : World P) (s : EventSubscription P) (place : Nat)
    (replayed live : List (EventStreamRecord P)) (closed : List SubscriptionCloseReason) :
    Prop where
  answers : w.answers = (replayed ++ live).map .event ++ closed.map .closed
  going : s.terminal = none → closed = []
  position : place ≤ s.live ∧ s.live ≤ w.live.sent.length
  /-- what was given live and what is still to come is all of the queue that is kept -/
  gives : s.terminal = none → live ++ (w.queue.drop s.live).filter (keeps s.filter s.highWater)
    = (w.queue.drop place).filter (keeps s.filter s.highWater)
  given : live <+: (w.queue.drop place).filter (keeps s.filter s.highWater)
  stored : ∀ r ∈ w.log.records, s.highWater < r.streamSequence → r ∈ w.queue.drop place
  /-- nothing to come is passed over as already delivered -/
  ahead : ∀ r ∈ w.queue.drop s.live, s.highWater < r.streamSequence →
    s.lastDeliveredSequence < r.streamSequence
  replayFirst : s.replay ≠ [] → live = []
  below : ∀ r ∈ replayed ++ s.replay, r.streamSequence ≤ s.highWater
  highWater : s.highWater ≤ w.log.lastSequence
  lastDelivered : s.lastDeliveredSequence ≤ w.log.lastSequence

section
variable {pruning : Prop} {w w' : World P} {s : EventSubscription P} {place : Nat}
  {replayed live : List (EventStreamRecord P)} {closed : List SubscriptionCloseReason}

theorem Delivering.moved (h : Delivering w s place replayed live closed) (hm : Moved pruning w w')
    (hanswers : w'.answers = w.answers) : Delivering w' s place replayed live closed := by
  have hsent : ∀ {xs : List (EventStreamRecord P)}, w.live.sent <+: xs → s.live ≤ xs.length :=
    fun hp => Nat.le_trans h.position.2 hp.length_le
  cases hm with
  | stays queue sent records last =>
    constructor
    case answers => rw [hanswers]; exact h.answers
    case going => exact h.going
    case position => exact ⟨h.position.1, hsent sent⟩
    case gives => rw [queue]; exact h.gives
    case given => rw [queue]; exact h.given
    case stored => rw [queue, records]; exact h.stored
    case ahead => rw [queue]; exact h.ahead
    case replayFirst => exact h.replayFirst
    case below => exact h.below
    case highWater => rw [last]; exact h.highWater
    case lastDelivered => rw [last]; exact h.lastDelivered
  | prunes allowed policy log queue sent =>
    have hmem : ∀ r ∈ w'.log.records, r ∈ w.log.records := by
      rw [log]
      exact fun r hr => List.mem_of_mem_filter hr
    have hlast : w'.log.lastSequence = w.log.lastSequence := by
      rw [log]
      rfl
    constructor
    case answers => rw [hanswers]; exact h.answers
    case going => exact h.going
    case position => exact ⟨h.position.1, hsent sent⟩
    case gives => rw [queue]; exact h.gives
    case given => rw [queue]; exact h.given
    case stored => rw [queue]; exact fun r hr => h.stored r (hmem r hr)
    case ahead => rw [queue]; exact h.ahead
    case replayFirst => exact h.replayFirst
    case below => exact h.below
    case highWater => rw [hlast]; exact h.highWater
    case lastDelivered => rw [hlast]; exact h.lastDelivered
  | appends record event inserted queue sent =>
    -- the new record is behind every place and above every sequence
    have hlen : s.live ≤ w.queue.length := by
      unfold World.queue
      rw [List.length_append]
      exact Nat.le_trans h.position.2 (Nat.le_add_right _ _)
    have hdropLive : w'.queue.drop s.live = w.queue.drop s.live ++ [record] := by
      rw [queue, List.drop_append_of_le_length hlen]
    have hdropPlace : w'.queue.drop place = w.queue.drop place ++ [record] := by
      rw [queue, List.drop_append_of_le_length (Nat.le_trans h.position.1 hlen)]
    constructor
    case answers => rw [hanswers]; exact h.answers
    case going => exact h.going
    case position => exact ⟨h.position.1, hsent sent⟩
    case gives =>
      intro hterminal
      rw [hdropLive, hdropPlace, List.filter_append, List.filter_append, ← List.append_assoc,
        h.gives hterminal]
    case given =>
      rw [hdropPlace, List.filter_append]
      exact h.given.trans (List.prefix_append _ _)
    case stored =>
      rw [hdropPlace, inserted.records]
      intro r hr habove
      rcases List.mem_append.mp hr with hr | hr
      · exact List.mem_append_left _ (h.stored r hr habove)
      · exact List.mem_append_right _ hr
    case ahead =>
      rw [hdropLive]
      intro r hr habove
      rcases List.mem_append.mp hr with hr | hr
      · exact h.ahead r hr habove
      · rw [List.mem_singleton.mp hr]
        exact Nat.lt_of_le_of_lt h.lastDelivered inserted.new
    case replayFirst => exact h.replayFirst
    case below => exact h.below
    case highWater =>
      rw [inserted.last]
      exact Nat.le_of_lt (Nat.lt_of_le_of_lt h.highWater inserted.new)
    case lastDelivered =>
      rw [inserted.last]
      exact Nat.le_of_lt (Nat.lt_of_le_of_lt h.lastDelivered inserted.new)

/-- the world after one turn of `recv` -/
def World.answered (w : World P) (lastEventId : Option String) (s : EventSubscription P)
    (answer : Option (SubscriptionOutcome P)) : World P :=
  { w with subscriber := .subscribed lastEventId s, answers := w.answers ++ answer.toList }

theorem answers_event {answers : List (SubscriptionOutcome P)} {given : List (EventStreamRecord P)}
    (h : answers = given.map .event) (r : EventStreamRecord P) :
    answers ++ [.event r] = (given ++ [r]).map .event := by
  rw [h, List.map_append]
  rfl

variable {r : EventStreamRecord P}

theorem Delivering.replayed_next (h : Delivering w s place replayed live closed)
    (hterminal : s.terminal = none) {rest : List (EventStreamRecord P)}
    (hreplay : s.replay = r :: rest) (lastEventId : Option String) :
    Delivering (w.answered lastEventId { s with
        replay := rest, lastDeliveredSequence := r.streamSequence } (some (.event r)))
      { s with replay := rest, lastDeliveredSequence := r.streamSequence } place (replayed ++ [r])
      live closed := by
  have hlive : live = [] := h.replayFirst (by rw [hreplay]; exact List.cons_ne_nil _ _)
  have hclosed : closed = [] := h.going hterminal
  have hbelow := h.below
  rw [hreplay] at hbelow
  have hr : r.streamSequence ≤ s.highWater :=
    hbelow r (List.mem_append_right _ List.mem_cons_self)
  subst hlive hclosed
  constructor
  case answers =>
    have hanswers := h.answers
    rw [List.append_nil, List.map_nil, List.append_nil] at hanswers
    show w.answers ++ [.event r] = _
    rw [List.append_nil, List.map_nil, List.append_nil, answers_event hanswers]
  case going => exact fun _ => rfl
  case position => exact h.position
  case gives => exact h.gives
  case given => exact h.given
  case stored => exact h.stored
  case ahead => exact fun q _ habove => Nat.lt_of_le_of_lt hr habove
  case replayFirst => exact fun _ => rfl
  case below =>
    intro q hq
    apply hbelow q
    rw [List.append_assoc] at hq
    exact hq
  case highWater => exact h.highWater
  case lastDelivered => exact Nat.le_trans hr h.highWater

theorem Delivering.skipped (h : Delivering w s place replayed live closed)
    (hterminal : s.terminal = none) (hsent : w.live.sent[s.live]? = some r)
    (hskip : s.skips r = true) (lastEventId : Option String) :
    Delivering (w.answered lastEventId { s with live := s.live + 1 } none)
      { s with live := s.live + 1 } place replayed live closed := by
  obtain ⟨hlt, -⟩ := List.getElem?_eq_some_iff.mp hsent
  have hqueue : w.queue.drop s.live = r :: w.queue.drop (s.live + 1) := by
    apply drop_of_getElem
    unfold World.queue
    rw [List.getElem?_append_left hlt]
    exact hsent
  have hkeep : keeps s.filter s.highWater r = false := by
    unfold keeps
    by_cases habove : s.highWater < r.streamSequence
    · have hahead := h.ahead r (by rw [hqueue]; exact List.mem_cons_self) habove
      unfold EventSubscription.skips at hskip
      rw [decide_eq_false (Nat.not_le.mpr habove), decide_eq_false (Nat.not_le.mpr hahead),
        Bool.or_false, Bool.false_or, Bool.not_eq_true'] at hskip
      rw [hskip, Bool.false_and]
    · rw [decide_eq_false habove, Bool.and_false]
  constructor
  case answers =>
    show w.answers ++ [] = _
    rw [List.append_nil]
    exact h.answers
  case going => exact h.going
  case position => exact ⟨Nat.le_succ_of_le h.position.1, hlt⟩
  case gives =>
    intro _
    have hgives := h.gives hterminal
    rw [hqueue, List.filter_cons_of_neg (by rw [hkeep]; exact Bool.false_ne_true)] at hgives
    exact hgives
  case given => exact h.given
  case stored => exact h.stored
  case ahead =>
    intro q hq
    exact h.ahead q (by rw [hqueue]; exact List.mem_cons_of_mem _ hq)
  case replayFirst => exact h.replayFirst
  case below => exact h.below
  case highWater => exact h.highWater
  case lastDelivered => exact h.lastDelivered

theorem Delivering.delivered_next (h : Delivering w s place replayed live closed)
    (hascending : Ascending EventStreamRecord.streamSequence w.queue)
    (hassigned : ∀ r ∈ w.queue, r.streamSequence ≤ w.log.lastSequence)
    (hterminal : s.terminal = none) (hreplay : s.replay = [])
    (hsent : w.live.sent[s.live]? = some r) (hskip : s.skips r = false)
    (lastEventId : Option String) :
    Delivering (w.answered lastEventId { s with
        live := s.live + 1, lastDeliveredSequence := r.streamSequence } (some (.event r)))
      { s with live := s.live + 1, lastDeliveredSequence := r.streamSequence } place replayed
      (live ++ [r]) closed := by
  obtain ⟨hlt, -⟩ := List.getElem?_eq_some_iff.mp hsent
  have hqueue : w.queue.drop s.live = r :: w.queue.drop (s.live + 1) := by
    apply drop_of_getElem
    unfold World.queue
    rw [List.getElem?_append_left hlt]
    exact hsent
  have hkeep : keeps s.filter s.highWater r = true := by
    unfold EventSubscription.skips at hskip
    obtain ⟨hseq, hmatches⟩ := Bool.or_eq_false_iff.mp hskip
    obtain ⟨habove, -⟩ := Bool.or_eq_false_iff.mp hseq
    unfold keeps
    rw [Bool.not_eq_eq_eq_not.mp hmatches,
      decide_eq_true (Nat.lt_of_not_le (of_decide_eq_false habove))]
    rfl
  have hgives := h.gives hterminal
  rw [hqueue, List.filter_cons_of_pos hkeep] at hgives
  have hclosed : closed = [] := h.going hterminal
  subst hclosed
  constructor
  case answers =>
    have hanswers := h.answers
    rw [List.map_nil, List.append_nil] at hanswers
    show w.answers ++ [.event r] = _
    rw [List.map_nil, List.append_nil, answers_event hanswers, List.append_assoc]
  case going => exact fun _ => rfl
  case position => exact ⟨Nat.le_succ_of_le h.position.1, hlt⟩
  case gives =>
    intro _
    show live ++ [r] ++ _ = _
    rw [List.append_assoc]
    exact hgives
  case given =>
    show live ++ [r] <+: (w.queue.drop place).filter _
    rw [← hgives]
    exact ⟨_, List.append_assoc _ _ _⟩
  case stored => exact h.stored
  case ahead =>
    intro q hq _
    have hdrop : Ascending EventStreamRecord.streamSequence (w.queue.drop s.live) :=
      hascending.sublist (List.drop_sublist _ _)
    rw [hqueue] at hdrop
    exact (List.pairwise_cons.mp hdrop).1 q hq
  case replayFirst => exact fun hne => absurd hreplay hne
  case below => exact h.below
  case highWater => exact h.highWater
  case lastDelivered =>
    apply hassigned
    apply List.mem_of_mem_drop
    rw [hqueue]
    exact List.mem_cons_self

theorem Delivering.closed_next (h : Delivering w s place replayed live closed)
    (reason : SubscriptionCloseReason) {s' : EventSubscription P}
    (hs' : s' = { s with live := s'.live, terminal := some reason })
    (hlive : s.live ≤ s'.live ∧ s'.live ≤ w.live.sent.length) (lastEventId : Option String) :
    Delivering (w.answered lastEventId s' (some (.closed reason))) s' place replayed live
      (closed ++ [reason]) := by
  rw [hs']
  constructor
  case answers =>
    show w.answers ++ [.closed reason] = _
    simp only [h.answers, List.map_append, List.append_assoc, List.map_cons, List.map_nil]
  case going => exact nofun
  case position => exact ⟨Nat.le_trans h.position.1 hlive.1, hlive.2⟩
  case gives => exact nofun
  case given => exact h.given
  case stored => exact h.stored
  case ahead =>
    intro r hr
    apply h.ahead r
    have hsub : w.queue.drop s'.live = (w.queue.drop s.live).drop (s'.live - s.live) := by
      rw [List.drop_drop, Nat.add_sub_cancel' hlive.1]
    have hr' : r ∈ w.queue.drop s'.live := hr
    rw [hsub] at hr'
    exact List.mem_of_mem_drop hr'
  case replayFirst => exact h.replayFirst
  case below => exact h.below
  case highWater => exact h.highWater
  case lastDelivered => exact h.lastDelivered

theorem Delivering.recv (h : Delivering w s place replayed live closed)
    (hascending : Ascending EventStreamRecord.streamSequence w.queue)
    (hassigned : ∀ r ∈ w.queue, r.streamSequence ≤ w.log.lastSequence)
    {s' : EventSubscription P} {answer : Option (SubscriptionOutcome P)}
    (hrecv : s.recv w.live = some (s', answer)) (lastEventId : Option String) :
    ∃ replayed' live' closed',
      Delivering (w.answered lastEventId s' answer) s' place replayed' live' closed' ∧
      replayed' ++ s'.replay = replayed ++ s.replay ∧ s'.filter = s.filter ∧
      s'.highWater = s.highWater := by
  unfold EventSubscription.recv at hrecv
  split at hrecv
  case h_1 reason hterminal =>
    obtain ⟨rfl, rfl⟩ := Prod.mk.inj (Option.some.inj hrecv)
    refine ⟨replayed, live, closed ++ [reason], ?_, rfl, rfl, rfl⟩
    refine h.closed_next reason ?_ ⟨Nat.le_refl _, h.position.2⟩ lastEventId
    rw [← hterminal]
  case h_2 hterminal =>
    split at hrecv
    case h_1 r rest hreplay =>
      obtain ⟨rfl, rfl⟩ := Prod.mk.inj (Option.some.inj hrecv)
      refine ⟨replayed ++ [r], live, closed, h.replayed_next hterminal hreplay lastEventId, ?_, rfl,
        rfl⟩
      show replayed ++ [r] ++ rest = _
      rw [hreplay, List.append_assoc]
      rfl
    case h_2 hreplay =>
      split at hrecv
      case h_1 => exact (nomatch hrecv)
      case h_2 r position hvalue =>
        obtain ⟨hsent, rfl⟩ := Broadcast.recv_value hvalue
        split at hrecv
        case isTrue hskip =>
          obtain ⟨rfl, rfl⟩ := Prod.mk.inj (Option.some.inj hrecv)
          exact ⟨replayed, live, closed, h.skipped hterminal hsent hskip lastEventId, rfl, rfl, rfl⟩
        case isFalse hskip =>
          obtain ⟨rfl, rfl⟩ := Prod.mk.inj (Option.some.inj hrecv)
          exact ⟨replayed, live ++ [r], closed, h.delivered_next hascending hassigned hterminal
            hreplay hsent (Bool.eq_false_of_not_eq_true hskip) lastEventId, rfl, rfl, rfl⟩
      case h_3 skipped position hlagged =>
        obtain ⟨rfl, rfl⟩ := Prod.mk.inj (Option.some.inj hrecv)
        exact ⟨replayed, live, closed ++ [.slowConsumer skipped],
          h.closed_next (.slowConsumer skipped) rfl (Broadcast.recv_moves hlagged h.position.2)
            lastEventId, rfl, rfl, rfl⟩
      case h_4 position hclosed =>
        obtain ⟨rfl, rfl⟩ := Prod.mk.inj (Option.some.inj hrecv)
        exact ⟨replayed, live, closed ++ [.managerClosed],
          h.closed_next .managerClosed rfl (Broadcast.recv_moves hclosed h.position.2) lastEventId,
          rfl, rfl, rfl⟩

end

/-! ## the start of a subscription -/

/-- the sequence a subscription starts behind: its cursor, or the high-water mark without one -/
def startOf (log : EventStreamLog P) (lastEventId : Option String) (highWater : Nat) :
    Option Nat :=
  match lastEventId with
  | none => some highWater
  | some lastEventId => (log.fetch lastEventId).map EventStreamRecord.streamSequence

variable {filter : EventStreamFilter} {window : EventReplayWindow P}

theorem replay_window {log : EventStreamLog P} {lastEventId : Option String} {limit : Nat}
    (h : replayEventStream log lastEventId filter limit = .ok window)
    (hmore : window.hasMore = false) : window.highWater = log.highWater ∧
      ∃ start, startOf log lastEventId (log.highWater.getD 0) = some start ∧
        start ≤ log.highWater.getD 0 ∧
        window.records = log.window filter start (log.highWater.getD 0) := by
  cases lastEventId with
  | none =>
    unfold replayEventStream at h
    split at h
    · exact (nomatch h)
    · obtain rfl := Except.ok.inj h
      refine ⟨rfl, log.highWater.getD 0, rfl, Nat.le_refl _, (List.filter_eq_nil_iff.mpr ?_).symm⟩
      intro r _ hin
      have hbetween := of_decide_eq_true (Bool.and_eq_true_iff.mp hin).2
      omega
  | some lastEventId =>
    obtain ⟨cursor, high, hfetch, hhigh, hwindow, hrecords⟩ := replay_complete h hmore
    rw [hwindow, hhigh]
    refine ⟨rfl, cursor.streamSequence, ?_, (highWater_some hhigh).2 cursor (fetch_some hfetch).1,
      hrecords⟩
    show (log.fetch lastEventId).map EventStreamRecord.streamSequence = _
    rw [hfetch]
    rfl

theorem highWater_getD (log : EventStreamLog P) :
    (∀ r ∈ log.records, r.streamSequence ≤ log.highWater.getD 0) ∧
      log.highWater.getD 0 ≤ log.lastSequence := by
  cases hhigh : log.highWater with
  | none =>
    rw [highWater_none hhigh]
    exact ⟨fun r hr => absurd hr List.not_mem_nil, Nat.zero_le _⟩
  | some high =>
    obtain ⟨⟨r, hr, rfl⟩, hmax⟩ := highWater_some hhigh
    exact ⟨hmax, log.assigned r hr⟩

theorem openSubscription_ok {place : Nat} {limit : Nat} {s : EventSubscription P}
    (h : openSubscription window place filter limit = .ok s) : window.hasMore = false ∧
      s = { replay := window.records, live := place, filter,
            highWater := window.highWater.getD 0, lastDeliveredSequence := 0, terminal := none } := by
  unfold openSubscription at h
  split at h
  · exact (nomatch h)
  case isFalse hmore => exact ⟨Bool.eq_false_of_not_eq_true hmore, (Except.ok.inj h).symm⟩

theorem delivering_start {w : World P} {place : Nat} {lastEventId : Option String}
    {s : EventSubscription P} (hplace : place ≤ w.live.sent.length) (hanswers : w.answers = [])
    (hreplay : replayEventStream w.log lastEventId filter w.replayLimit = .ok window)
    (hopen : openSubscription window place filter w.replayLimit = .ok s) :
    Delivering { w with subscriber := .subscribed lastEventId s } s place [] [] [] := by
  obtain ⟨hmore, rfl⟩ := openSubscription_ok hopen
  obtain ⟨hhigh, start, -, -, hrecords⟩ := replay_window hreplay hmore
  obtain ⟨hmax, hassigned⟩ := highWater_getD w.log
  rw [← hhigh] at hmax hassigned
  constructor
  case answers => exact hanswers
  case going => exact fun _ => rfl
  case position => exact ⟨Nat.le_refl _, hplace⟩
  case gives => exact fun _ => rfl
  case given => exact List.nil_prefix
  case stored => exact fun r hr habove => absurd (hmax r hr) (Nat.not_le.mpr habove)
  case ahead => exact fun r _ habove => Nat.lt_of_le_of_lt (Nat.zero_le _) habove
  case replayFirst => exact fun _ => rfl
  case below =>
    intro r hr
    rw [List.nil_append] at hr
    have hr' : r ∈ window.records := hr
    rw [hrecords] at hr'
    exact hmax r (List.mem_of_mem_filter hr')
  case highWater => exact hassigned
  case lastDelivered => exact Nat.zero_le _

/-! ## the invariant of the world -/

/-- the replay of a subscription, given and still to give, is what the log stores between its start
and its mark -/
def Replaying (w : World P) (lastEventId : Option String) (s : EventSubscription P)
    (replayed : List (EventStreamRecord P)) : Prop :=
  ∃ start, startOf w.log lastEventId s.highWater = some start ∧ start ≤ s.highWater ∧
    replayed ++ s.replay = w.log.window s.filter start s.highWater

/-- A reachable world whose fan-outs all happened; `whole` says that nothing was pruned since the
manager started over the records `stored`. -/
structure Sound (stored : List (EventStreamRecord P)) (whole : Prop) (w : World P) : Prop where
  ascending : Ascending EventStreamRecord.streamSequence w.queue
  assigned : ∀ r ∈ w.queue, r.streamSequence ≤ w.log.lastSequence
  records : whole → w.log.records = stored ++ w.queue
  quiet : (∀ lastEventId s, w.subscriber ≠ .subscribed lastEventId s) → w.answers = []
  listening : ∀ place filter lastEventId, w.subscriber = .listening place filter lastEventId →
    place ≤ w.live.sent.length
  subscribed : ∀ lastEventId s, w.subscriber = .subscribed lastEventId s →
    ∃ place replayed live closed, Delivering w s place replayed live closed ∧
      (whole → Replaying w lastEventId s replayed)

section
variable {pruning : Prop} {w w' : World P} {stored : List (EventStreamRecord P)} {whole : Prop}
  {lastEventId : Option String}

theorem sound_start (config : EventStreamManagerConfig) (slots : Nat) (log : EventStreamLog P)
    (whole : Prop) : Sound log.records whole (World.start config slots log) where
  ascending := List.Pairwise.nil
  assigned := fun _ hr => absurd hr List.not_mem_nil
  records := fun _ => (List.append_nil _).symm
  quiet := fun _ => rfl
  listening := nofun
  subscribed := nofun

theorem startOf_append {log log' : EventStreamLog P} {record : EventStreamRecord P}
    (hrecords : log'.records = log.records ++ [record]) {highWater start : Nat}
    (h : startOf log lastEventId highWater = some start) :
    startOf log' lastEventId highWater = some start := by
  cases lastEventId with
  | none => exact h
  | some lastEventId =>
    obtain ⟨cursor, hfetch, hstart⟩ := Option.map_eq_some_iff.mp h
    refine Option.map_eq_some_iff.mpr ⟨cursor, ?_, hstart⟩
    have hfind : log.records.find? (fun r => r.eventId == lastEventId) = some cursor := hfetch
    unfold EventStreamLog.fetch
    rw [hrecords, List.find?_append, hfind]
    rfl

theorem Replaying.moved {s : EventSubscription P} {replayed : List (EventStreamRecord P)}
    (h : Replaying w lastEventId s replayed) (hm : Moved pruning w w')
    (hlast : s.highWater ≤ w.log.lastSequence) (hnot : ¬ pruning) :
    Replaying w' lastEventId s replayed := by
  obtain ⟨start, hstart, hle, hreplay⟩ := h
  have hsame : w'.log.records = w.log.records → Replaying w' lastEventId s replayed := by
    intro hrecords
    refine ⟨start, ?_, hle, ?_⟩
    · cases lastEventId with
      | none => exact hstart
      | some lastEventId =>
        unfold startOf EventStreamLog.fetch at hstart ⊢
        rw [hrecords]
        exact hstart
    · unfold EventStreamLog.window at hreplay ⊢
      rw [hrecords]
      exact hreplay
  cases hm with
  | stays queue sent records last => exact hsame records
  | prunes allowed policy log queue sent => exact absurd allowed hnot
  | appends record event inserted queue sent =>
    refine ⟨start, startOf_append inserted.records hstart, hle, ?_⟩
    -- the new record is above the mark
    have hout : ¬ (s.filter.matches record && decide (start < record.streamSequence ∧
        record.streamSequence ≤ s.highWater)) = true := by
      intro hin
      have hbetween := of_decide_eq_true (Bool.and_eq_true_iff.mp hin).2
      have hnew := inserted.new
      omega
    have hnone : [record].filter (fun r => s.filter.matches r && decide (start < r.streamSequence ∧
        r.streamSequence ≤ s.highWater)) = [] := List.filter_cons_of_neg hout
    unfold EventStreamLog.window at hreplay ⊢
    rw [inserted.records, List.filter_append, hnone, List.append_nil, hreplay]

theorem Sound.moved (h : Sound stored whole w) (hm : Moved pruning w w')
    (hsubscriber : w'.subscriber = w.subscriber) (hanswers : w'.answers = w.answers)
    (hwhole : whole → ¬ pruning) : Sound stored whole w' := by
  have hsent : w.live.sent <+: w'.live.sent := by
    cases hm with
    | stays queue sent records last => exact sent
    | prunes allowed policy log queue sent => exact sent
    | appends record event inserted queue sent => exact sent
  constructor
  case quiet =>
    intro hnone
    rw [hanswers]
    exact h.quiet (by rw [← hsubscriber]; exact hnone)
  case listening =>
    intro place filter lastEventId hlistening
    rw [hsubscriber] at hlistening
    exact Nat.le_trans (h.listening place filter lastEventId hlistening) hsent.length_le
  case subscribed =>
    intro lastEventId s hs
    rw [hsubscriber] at hs
    obtain ⟨place, replayed, live, closed, hd, hr⟩ := h.subscribed lastEventId s hs
    exact ⟨place, replayed, live, closed, hd.moved hm hanswers,
      fun hw => (hr hw).moved hm hd.highWater (hwhole hw)⟩
  case ascending =>
    cases hm with
    | stays queue sent records last => rw [queue]; exact h.ascending
    | prunes allowed policy log queue sent => rw [queue]; exact h.ascending
    | appends record event inserted queue sent =>
      rw [queue]
      exact h.ascending.snoc fun q hq => Nat.lt_of_le_of_lt (h.assigned q hq) inserted.new
  case assigned =>
    cases hm with
    | stays queue sent records last => rw [queue, last]; exact h.assigned
    | prunes allowed policy log queue sent => rw [queue, log]; exact h.assigned
    | appends record event inserted queue sent =>
      rw [queue, inserted.last]
      intro r hr
      rcases List.mem_append.mp hr with hr | hr
      · exact Nat.le_of_lt (Nat.lt_of_le_of_lt (h.assigned r hr) inserted.new)
      · rw [List.mem_singleton.mp hr]
  case records =>
    intro hw
    cases hm with
    | stays queue sent records last => rw [queue, records]; exact h.records hw
    | prunes allowed policy log queue sent => exact absurd allowed (hwhole hw)
    | appends record event inserted queue sent =>
      rw [queue, inserted.records, h.records hw, List.append_assoc]

theorem moved_publishing {publishing : Publishing P} (hpending : publishing.pending = [])
    (hbefore : w.publishing.pending = []) :
    Moved False w { w with publishing := publishing } := by
  refine .stays ?_ (List.prefix_refl _) rfl rfl
  show w.live.sent ++ publishing.pending = w.live.sent ++ w.publishing.pending
  rw [hpending, hbefore]

theorem Sound.refused (h : Sound stored whole w) (hanswers : w.answers = [])
    (e : EventStreamManagerError) : Sound stored whole { w with subscriber := .refused e } where
  ascending := h.ascending
  assigned := h.assigned
  records := h.records
  quiet := fun _ => hanswers
  listening := nofun
  subscribed := nofun

theorem sound_subscribe (h : Sound stored whole w) (habsent : w.subscriber = .absent)
    (request : EventSubscriptionRequest) (principalAccounts : AuthorizedAccountScope) :
    Sound stored whole (w.subscribe request principalAccounts) := by
  have hanswers : w.answers = [] := h.quiet (by rw [habsent]; exact nofun)
  unfold World.subscribe
  split
  case h_2 e he => exact h.refused hanswers e
  case h_1 filter hfilter =>
    constructor
    case ascending => exact h.ascending
    case assigned => exact h.assigned
    case records => exact h.records
    case quiet => exact fun _ => hanswers
    case listening =>
      intro place filter' lastEventId hlistening
      obtain ⟨rfl, -, -⟩ := Subscriber.listening.inj hlistening
      exact Nat.le_refl _
    case subscribed => exact nofun

theorem sound_replay (h : Sound stored whole w) {place : Nat} {filter : EventStreamFilter}
    (hlistening : w.subscriber = .listening place filter lastEventId) :
    Sound stored whole (w.replay place filter lastEventId) := by
  have hanswers : w.answers = [] := h.quiet (by rw [hlistening]; exact nofun)
  unfold World.replay
  split
  case h_1 e he => exact h.refused hanswers e.toManager
  case h_2 window hwindow =>
    split
    case h_1 e he => exact h.refused hanswers e
    case h_2 s hs =>
      constructor
      case ascending => exact h.ascending
      case assigned => exact h.assigned
      case records => exact h.records
      case quiet => exact fun hnone => absurd rfl (hnone lastEventId s)
      case listening => exact nofun
      case subscribed =>
        intro lastEventId' s' hs'
        obtain ⟨rfl, rfl⟩ := Subscriber.subscribed.inj hs'
        refine ⟨place, [], [], [], delivering_start (h.listening place filter _ hlistening)
          hanswers hwindow hs, fun _ => ?_⟩
        obtain ⟨hmore, rfl⟩ := openSubscription_ok hs
        obtain ⟨hhigh, start, hstart, hle, hrecords⟩ := replay_window hwindow hmore
        rw [← hhigh] at hstart hle hrecords
        exact ⟨start, hstart, hle, hrecords⟩

theorem sound_recv (h : Sound stored whole w) {s : EventSubscription P}
    (hs : w.subscriber = .subscribed lastEventId s) :
    Sound stored whole (w.recv lastEventId s) := by
  obtain ⟨place, replayed, live, closed, hd, hr⟩ := h.subscribed lastEventId s hs
  unfold World.recv
  split
  case h_1 => exact h
  case h_2 s' answer hrecv =>
    obtain ⟨replayed', live', closed', hd', hreplay, hfilter, hhigh⟩ :=
      hd.recv h.ascending h.assigned hrecv lastEventId
    constructor
    case ascending => exact h.ascending
    case assigned => exact h.assigned
    case records => exact h.records
    case quiet => exact fun hnone => absurd rfl (hnone lastEventId s')
    case listening => exact nofun
    case subscribed =>
      intro lastEventId'' s'' hs''
      obtain ⟨rfl, rfl⟩ := Subscriber.subscribed.inj hs''
      refine ⟨place, replayed', live', closed', hd', fun hw => ?_⟩
      obtain ⟨start, hstart, hle, hwindow⟩ := hr hw
      refine ⟨start, ?_, ?_, ?_⟩
      · rw [hhigh]
        exact hstart
      · rw [hhigh]
        exact hle
      · rw [hreplay, hfilter, hhigh]
        exact hwindow

theorem sound_step [DecidableEq P] (h : Sound stored whole w) (step : Step P)
    (hkept : FanOutKept w step) (hwhole : whole → ∀ policy, step ≠ .prune policy) :
    Sound stored whole (w.step step) := by
  have hmoved : ∀ {w' : World P}, Moved False w w' → w'.subscriber = w.subscriber →
      w'.answers = w.answers → Sound stored whole w' :=
    fun hm hsubscriber hanswers => h.moved hm hsubscriber hanswers fun _ => not_false
  cases step with
  | lock event =>
    unfold World.step
    dsimp only
    split
    case h_1 hidle =>
      split
      · exact h
      · exact hmoved (moved_publishing rfl (by rw [hidle]; rfl)) rfl rfl
    case h_2 => exact h
  | append skipped =>
    unfold World.step
    dsimp only
    split
    case h_1 event hlocked =>
      refine hmoved (moved_append hlocked) ?_ ?_
      · unfold World.append
        split <;> rfl
      · unfold World.append
        split <;> rfl
    case h_2 => exact h
  | fanOut =>
    unfold World.step
    dsimp only
    split
    case h_1 outcome happended => exact hmoved (moved_fanOut happended) rfl rfl
    case h_2 => exact h
  | cancel => exact hmoved (moved_publishing rfl hkept) rfl rfl
  | prune policy =>
    unfold World.step
    dsimp only
    split
    case h_1 outcome log hprune =>
      have hm : Moved True w { w with log } :=
        .prunes trivial policy (prune_ok hprune) rfl (List.prefix_refl _)
      exact h.moved hm rfl rfl fun hw => absurd rfl (hwhole hw policy)
    case h_2 => exact h
  | subscribe request principalAccounts =>
    unfold World.step
    dsimp only
    split
    case h_1 habsent =>
      split
      · exact h
      · exact sound_subscribe h habsent request principalAccounts
    case h_2 => exact h
  | replay =>
    unfold World.step
    dsimp only
    split
    case h_1 place filter lastEventId hlistening => exact sound_replay h hlistening
    case h_2 => exact h
  | recv =>
    unfold World.step
    dsimp only
    split
    case h_1 lastEventId s hs => exact sound_recv h hs
    case h_2 => exact h
  | close =>
    unfold World.step
    dsimp only
    split
    case h_1 => exact h
    case h_2 hidle _ =>
      exact hmoved (.stays rfl (List.prefix_refl _) rfl rfl) rfl rfl
    case h_3 => exact h

end

theorem sound_run [DecidableEq P] (config : EventStreamManagerConfig) (slots : Nat)
    (log : EventStreamLog P) {whole : Prop} {steps : List (Step P)}
    (hkept : always World.step FanOutKept (World.start config slots log) steps)
    (hwhole : whole → ∀ step ∈ steps, ∀ policy, step ≠ .prune policy) (k : Nat) :
    Sound log.records whole (before World.step (World.start config slots log) steps k) := by
  induction k with
  | zero => exact sound_start config slots log whole
  | succ k ih =>
    cases hstep : steps[k]? with
    | none =>
      rw [before_past World.step _ hstep]
      exact ih
    | some step =>
      rw [before_succ World.step _ hstep]
      exact sound_step ih step (always_at World.step hkept hstep)
        fun hw => hwhole hw step (List.mem_of_getElem? hstep)

/-! ## the records between two others -/

theorem delivered_of_answers {w : World P} {given : List (EventStreamRecord P)}
    {closed : List SubscriptionCloseReason}
    (h : w.answers = given.map .event ++ closed.map .closed) : w.delivered = given := by
  unfold World.delivered
  rw [h, List.filterMap_append, List.filterMap_map, List.filterMap_map]
  have hclosed : ∀ reasons : List SubscriptionCloseReason,
      reasons.filterMap (fun _ => (none : Option (EventStreamRecord P))) = [] :=
    fun reasons => List.filterMap_eq_nil_iff.mpr fun _ _ => rfl
  have hgiven : given.filterMap some = given := List.filterMap_some
  exact (congrArg₂ (· ++ ·) hgiven (hclosed closed)).trans (List.append_nil given)

/-- no stored record it is for stands undelivered in front of one it has delivered live -/
def Gapless (w : World P) : Prop :=
  ∀ lastEventId s, w.subscriber = .subscribed lastEventId s →
    ∀ d ∈ w.delivered, ∀ r ∈ w.log.records, s.highWater < r.streamSequence →
      r.streamSequence < d.streamSequence → s.filter.matches r = true → r ∈ w.delivered

theorem Sound.gapless {w : World P} {stored : List (EventStreamRecord P)} {whole : Prop}
    (h : Sound stored whole w) : Gapless w := by
  intro lastEventId s hs d hd r hr habove hlt hmatches
  obtain ⟨place, replayed, live, closed, hdel, -⟩ := h.subscribed lastEventId s hs
  rw [delivered_of_answers hdel.answers] at hd ⊢
  have hkept : r ∈ (w.queue.drop place).filter (keeps s.filter s.highWater) := by
    refine List.mem_filter.mpr ⟨hdel.stored r hr habove, ?_⟩
    unfold keeps
    rw [hmatches, decide_eq_true habove]
    rfl
  have hascending : Ascending EventStreamRecord.streamSequence
      ((w.queue.drop place).filter (keeps s.filter s.highWater)) :=
    h.ascending.sublist (List.filter_sublist.trans (List.drop_sublist _ _))
  rcases List.mem_append.mp hd with hd | hd
  · -- the replay ends at the mark
    have hbelow := hdel.below d (List.mem_append_left _ hd)
    omega
  · exact List.mem_append_right _ (hascending.mem_prefix hdel.given hd hkept hlt)

/-- a run in which no publish is dropped between its commit and its fan-out leaves no gap -/
theorem gapless_of_fanOut_kept [DecidableEq P] (config : EventStreamManagerConfig) (slots : Nat)
    (log : EventStreamLog P) (steps : List (Step P))
    (hkept : always World.step FanOutKept (World.start config slots log) steps) (k : Nat) :
    Gapless (before World.step (World.start config slots log) steps k) :=
  (sound_run config slots log hkept False.elim k).gapless

/-- a subscription to the global events, from now on -/
def globalEvents : Step String :=
  .subscribe { topics := [.systemEvent], accountId := none, lastEventId := none } ⟨[]⟩

/-- an event is published while the subscription is being opened, and one after it -/
def publishedAround : List (Step String) :=
  [globalEvents, .lock (systemEvent "event-1" 10), .append 0, .replay, .fanOut,
    .lock (systemEvent "event-2" 20), .append 0, .fanOut, .recv, .recv]

/-- … and the second is published again, once after a publish that was dropped before its commit and
once as a duplicate -/
def retriedAround : List (Step String) :=
  [globalEvents, .lock (systemEvent "event-1" 10), .append 0, .replay, .fanOut,
    .lock (systemEvent "event-2" 20), .cancel, .lock (systemEvent "event-2" 20), .append 0, .fanOut,
    .lock (systemEvent "event-2" 20), .append 0, .cancel, .recv, .recv]

theorem gapless_published_around :
    Gapless (before World.step (World.start ⟨4, 10⟩ 4 .empty) retriedAround 15) :=
  gapless_of_fanOut_kept ⟨4, 10⟩ 4 .empty retriedAround (by decide +kernel) 15

/-- A publish is dropped after its commit, its retry is answered `Duplicate` and takes a number of the
sequence, and another event is published. -/
def interruptedPublish : List (Step String) :=
  [globalEvents, .replay, .lock (systemEvent "event-1" 10), .append 0, .cancel,
    .lock (systemEvent "event-1" 10), .append 0, .fanOut,
    .lock (systemEvent "event-2" 20), .append 1, .fanOut, .recv]

/-- the subscription then gets the second event without the first -/
theorem interrupted_publish_leaves_gap :
    ¬ ∀ (steps : List (Step String)) (k : Nat),
      Gapless (before World.step (World.start ⟨4, 10⟩ 4 .empty) steps k) := by
  intro h
  have hsubscriber : (before World.step (World.start ⟨4, 10⟩ 4 .empty) interruptedPublish
      12).subscriber = .subscribed none
        { replay := [], live := 1, filter := { topics := [.systemEvent], accountScope := ⟨[]⟩ },
          highWater := 0, lastDeliveredSequence := 3, terminal := none } := by
    decide +kernel
  have hmissed := h interruptedPublish 12 none _ hsubscriber
    ((systemEvent "event-2" 20).at 3) (by decide +kernel)
    ((systemEvent "event-1" 10).at 1) (by decide +kernel) (by decide) (by decide) (by decide)
  exact absurd hmissed (by decide +kernel)

/-! ## the whole subscription -/

/-- The subscription has delivered, in order, the first of the stored records it is for that lie
behind its start; and once it has answered `Closed` it has answered nothing else. -/
def Seamless (w : World P) : Prop :=
  ∀ lastEventId s, w.subscriber = .subscribed lastEventId s →
    ∃ (start : Nat) (given : List (EventStreamRecord P)) (closed : List SubscriptionCloseReason),
      startOf w.log lastEventId s.highWater = some start ∧
      w.answers = given.map .event ++ closed.map .closed ∧
      given <+: w.log.records.filter (fun r =>
        s.filter.matches r && decide (start < r.streamSequence)) ∧
      Ascending EventStreamRecord.streamSequence given

theorem Sound.expected {w : World P} {stored : List (EventStreamRecord P)}
    (h : Sound stored True w) {s : EventSubscription P} {place start : Nat}
    {replayed live : List (EventStreamRecord P)} {closed : List SubscriptionCloseReason}
    (hd : Delivering w s place replayed live closed) (hle : start ≤ s.highWater) :
    w.log.records.filter (fun r => s.filter.matches r && decide (start < r.streamSequence))
      = w.log.window s.filter start s.highWater
        ++ (w.queue.drop place).filter (keeps s.filter s.highWater) := by
  rw [w.log.ascending.split s.highWater]
  congr 1
  · apply List.filter_congr
    intro r _
    rw [Bool.decide_and, Bool.and_assoc]
  · have hkeeps : w.log.records.filter (fun r => s.filter.matches r &&
        decide (start < r.streamSequence) && decide (s.highWater < r.streamSequence))
        = w.log.records.filter (keeps s.filter s.highWater) := by
      apply List.filter_congr
      intro r _
      unfold keeps
      by_cases habove : s.highWater < r.streamSequence
      · rw [decide_eq_true habove, decide_eq_true (Nat.lt_of_le_of_lt hle habove), Bool.and_true]
      · rw [decide_eq_false habove, Bool.and_false, Bool.and_false]
    have hrecords : w.log.records = (stored ++ w.queue.take place) ++ w.queue.drop place := by
      rw [List.append_assoc, List.take_append_drop]
      exact h.records trivial
    -- a record above the mark stands behind the place, and no record stands in two places
    have hnone : (stored ++ w.queue.take place).filter (keeps s.filter s.highWater) = [] := by
      apply List.filter_eq_nil_iff.mpr
      intro r hr hkeep
      have habove := of_decide_eq_true (Bool.and_eq_true_iff.mp hkeep).2
      have hin : r ∈ w.queue.drop place :=
        hd.stored r (by rw [hrecords]; exact List.mem_append_left _ hr) habove
      have hascending := w.log.ascending
      rw [hrecords] at hascending
      exact absurd ((List.pairwise_append.mp hascending).2.2 r hr r hin) (Nat.lt_irrefl _)
    rw [hkeeps, hrecords, List.filter_append, hnone, List.nil_append]

theorem Sound.seamless {w : World P} {stored : List (EventStreamRecord P)}
    (h : Sound stored True w) : Seamless w := by
  intro lastEventId s hs
  obtain ⟨place, replayed, live, closed, hd, hr⟩ := h.subscribed lastEventId s hs
  obtain ⟨start, hstart, hle, hreplay⟩ := hr trivial
  have hexpected := h.expected hd hle
  have hinitial : replayed ++ live <+: w.log.records.filter (fun r =>
      s.filter.matches r && decide (start < r.streamSequence)) := by
    rw [hexpected, ← hreplay]
    cases hrest : s.replay with
    | nil =>
      rw [List.append_nil]
      exact (List.prefix_append_right_inj replayed).mpr hd.given
    | cons r rest =>
      have hlive : live = [] := hd.replayFirst (by rw [hrest]; exact List.cons_ne_nil _ _)
      rw [hlive, List.append_nil, List.append_assoc]
      exact List.prefix_append _ _
  exact ⟨start, replayed ++ live, closed, hstart, hd.answers, hinitial,
    w.log.ascending.sublist (hinitial.sublist.trans List.filter_sublist)⟩

/-- a step of a publisher that runs to completion, or of the subscriber, over a log that is not
pruned -/
def Uninterrupted : Step P → Prop
  | .cancel | .prune _ => False
  | _ => True

instance Uninterrupted.decidable : (step : Step P) → Decidable (Uninterrupted step)
  | .cancel | .prune _ => isFalse not_false
  | .lock _ | .append _ | .fanOut | .subscribe _ _ | .replay | .recv | .close => isTrue trivial

theorem always_kept [DecidableEq P] {steps : List (Step P)}
    (hsteps : ∀ step ∈ steps, Uninterrupted step) (w : World P) :
    always World.step FanOutKept w steps := by
  induction steps generalizing w with
  | nil => trivial
  | cons step steps ih =>
    refine ⟨?_, ih (fun s hs => hsteps s (List.mem_cons_of_mem _ hs)) _⟩
    have hstep := hsteps step List.mem_cons_self
    cases step with
    | cancel => exact absurd hstep not_false
    | _ => trivial

/-- With publishers that run to completion and no pruning, every subscription is seamless, and the
two filters it is made of are one. -/
theorem seamless_of_uninterrupted [DecidableEq P] (config : EventStreamManagerConfig) (slots : Nat)
    (log : EventStreamLog P) (steps : List (Step P)) (hsteps : ∀ step ∈ steps, Uninterrupted step)
    (k : Nat) :
    Seamless (before World.step (World.start config slots log) steps k) ∧
      ∀ (f : EventStreamFilter) (r : EventStreamRecord P), f.selects r = f.matches r := by
  have hwhole : ∀ step ∈ steps, ∀ policy, step ≠ .prune policy := by
    rintro step hstep policy rfl
    exact hsteps _ hstep
  exact ⟨(sound_run config slots log (always_kept hsteps _) (fun _ => hwhole) k).seamless,
    selects_eq_matches⟩

theorem seamless_published_around :
    Seamless (before World.step (World.start ⟨4, 10⟩ 4 .empty) publishedAround 10) ∧
      ∀ (f : EventStreamFilter) (r : EventStreamRecord String), f.selects r = f.matches r :=
  seamless_of_uninterrupted ⟨4, 10⟩ 4 .empty publishedAround (by decide) 10

end Sinan.Events
