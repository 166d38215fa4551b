import Sinan.Events.Log
import Sinan.Lib.Run

/-!
# Event stream: what retention leaves to a resumed subscriber

`History` is the log beside everything that was ever appended to it.  As long as every prune deletes
the oldest rows, the log stays a SUFFIX of the history; then a stored cursor has everything after it
still stored, and a cursor in front of a pruned record is itself pruned.  The age bound of a policy
looks at `created_at`, which callers choose, so it alone can break the suffix.
-/

namespace Sinan.Events

open Lib Store

variable {P : Type} [DecidableEq P]

structure History (P : Type) where
  log : EventStreamLog P
  /-- every record ever appended, oldest first -/
  appended : List (EventStreamRecord P)

def History.new : History P := { log := .empty, appended := [] }

inductive LogCall (P : Type) where
  | append (event : NewEventStreamRecord P) (skipped : Nat)
  | prune (policy : EventRetentionPolicy)

/-- one call; a call that fails leaves the log alone -/
def History.step (h : History P) : LogCall P → History P
  | .append event skipped =>
    match appendEventStreamRecord h.log event skipped with
    | .ok (.inserted record, log) => { log, appended := h.appended ++ [record] }
    | .ok (.duplicate _, log) => { h with log }
    | .error _ => h
  | .prune policy =>
    match pruneEventStream h.log policy with
    | .ok (_, log) => { h with log }
    | .error _ => h

/-- the call prunes oldest first: no stored record in front of a pruned one stays -/
def PrunesInOrder (h : History P) : LogCall P → Prop
  | .append _ _ => True
  | .prune policy =>
    h.log.records.Pairwise fun a b => prunes h.log policy b = true → prunes h.log policy a = true

instance PrunesInOrder.decidable (h : History P) : (call : LogCall P) → Decidable (PrunesInOrder h call)
  | .append _ _ => isTrue trivial
  | .prune policy => inferInstanceAs (Decidable (List.Pairwise (fun a b =>
      prunes h.log policy b = true → prunes h.log policy a = true) h.log.records))

/-- what every answer to a resume promises -/
structure Resumes (h : History P) : Prop where
  /-- a replay that is not cut short returns every matching record ever appended behind the cursor -/
  complete : ∀ (cursorId : String) (filter : EventStreamFilter) (limit : Nat)
    (window : EventReplayWindow P),
    replayEventStream h.log (some cursorId) filter limit = .ok window → window.hasMore = false →
    ∃ cursor high, h.log.fetch cursorId = some cursor ∧ window.highWater = some high ∧
      ∀ r ∈ h.appended, cursor.streamSequence < r.streamSequence → r.streamSequence ≤ high →
        filter.matches r = true → r ∈ window.records
  /-- and when one of them has been pruned, the cursor is refused -/
  expired : ∀ (cursor r : EventStreamRecord P) (filter : EventStreamFilter) (limit : Nat),
    cursor ∈ h.appended →
    (∀ q ∈ h.appended, q.eventId = cursor.eventId → q.streamSequence ≤ cursor.streamSequence) →
    r ∈ h.appended → cursor.streamSequence < r.streamSequence → filter.matches r = true →
    r ∉ h.log.records → 0 < limit →
    replayEventStream h.log (some cursor.eventId) filter limit
      = .error (.cursorExpired cursor.eventId)

/-! ## the log is the end of the history -/

structure Tail (h : History P) : Prop where
  suffix : h.log.records <:+ h.appended
  ascending : Ascending EventStreamRecord.streamSequence h.appended
  assigned : ∀ r ∈ h.appended, r.streamSequence ≤ h.log.lastSequence

omit [DecidableEq P] in
theorem tail_new : Tail (History.new : History P) where
  suffix := List.suffix_refl []
  ascending := List.Pairwise.nil
  assigned := fun _ hr => absurd hr List.not_mem_nil

variable {h : History P}

omit [DecidableEq P] in
theorem Tail.insert {event : NewEventStreamRecord P} {record : EventStreamRecord P}
    {log : EventStreamLog P} (ht : Tail h) (hins : Inserted h.log event record log) :
    Tail { log, appended := h.appended ++ [record] } where
  suffix := by
    obtain ⟨pruned, happended⟩ := ht.suffix
    refine ⟨pruned, ?_⟩
    show pruned ++ log.records = h.appended ++ [record]
    rw [hins.records, ← List.append_assoc, happended]
  ascending := ht.ascending.snoc fun q hq => Nat.lt_of_le_of_lt (ht.assigned q hq) hins.new
  assigned := by
    intro r hr
    show r.streamSequence ≤ log.lastSequence
    rw [hins.last]
    rcases List.mem_append.mp hr with hr | hr
    · exact Nat.le_of_lt (Nat.lt_of_le_of_lt (ht.assigned r hr) hins.new)
    · rw [List.mem_singleton.mp hr]

theorem tail_step (ht : Tail h) (call : LogCall P) (hordered : PrunesInOrder h call) :
    Tail (h.step call) := by
  cases call with
  | append event skipped =>
    unfold History.step
    dsimp only
    split
    case h_1 record log happend => exact ht.insert (append_inserted happend)
    case h_2 record log happend =>
      rw [append_duplicate happend]
      exact ht
    case h_3 => exact ht
  | prune policy =>
    unfold History.step
    dsimp only
    split
    case h_1 outcome log hprune =>
      rw [prune_ok hprune]
      exact ⟨(filter_suffix hordered).trans ht.suffix, ht.ascending, ht.assigned⟩
    case h_2 => exact ht

theorem tail_run {calls : List (LogCall P)}
    (hordered : always History.step PrunesInOrder (History.new : History P) calls) (k : Nat) :
    Tail (before History.step (History.new : History P) calls k) := by
  induction k with
  | zero => exact tail_new
  | succ k ih =>
    cases hcall : calls[k]? with
    | none =>
      rw [before_past History.step _ hcall]
      exact ih
    | some call =>
      rw [before_succ History.step _ hcall]
      exact tail_step ih call (always_at History.step hordered hcall)

/-! ## resuming from the end of the history -/

omit [DecidableEq P] in
theorem Tail.resumes (ht : Tail h) : Resumes h where
  complete := by
    intro cursorId filter limit window hreplay hmore
    obtain ⟨cursor, high, hfetch, -, hhigh, hrecords⟩ := replay_complete hreplay hmore
    refine ⟨cursor, high, hfetch, hhigh, fun r hr hafter hbelow hmatches => ?_⟩
    have hstored : r ∈ h.log.records :=
      ht.ascending.mem_suffix ht.suffix (fetch_some hfetch).1 hr hafter
    rw [hrecords]
    refine List.mem_filter.mpr ⟨hstored, ?_⟩
    rw [hmatches, decide_eq_true ⟨hafter, hbelow⟩]
    rfl
  expired := by
    intro cursor r filter limit hcursor hlatest hr hafter hmatches hpruned hlimit
    refine replay_expired ?_ filter hlimit
    by_contra hstored
    obtain ⟨q, hq⟩ := Option.ne_none_iff_exists'.mp hstored
    obtain ⟨hmem, hid⟩ := fetch_some hq
    -- a stored record under the id of the cursor is not later than the cursor, so before `r`
    have hle : q.streamSequence ≤ cursor.streamSequence := hlatest q (ht.suffix.subset hmem) hid
    exact hpruned (ht.ascending.mem_suffix ht.suffix hmem hr (Nat.lt_of_le_of_lt hle hafter))

/-- where every prune deletes the oldest rows first, no resume ever misses a pruned record silently -/
theorem resumes_of_ordered_prunes (calls : List (LogCall P))
    (hordered : always History.step PrunesInOrder (History.new : History P) calls) (k : Nat) :
    Resumes (before History.step (History.new : History P) calls k) :=
  (tail_run hordered k).resumes

/-- an hour's retention over events of growing age -/
theorem resumes_after_ordered_prune :
    Resumes (before History.step History.new
      [.append (systemEvent "event-1" 10) 0, .append (systemEvent "event-2" 100) 0,
        .prune { retainLatest := none, createdAtOrAfter := some 50 }] 3) :=
  resumes_of_ordered_prunes
    [.append (systemEvent "event-1" 10) 0, .append (systemEvent "event-2" 100) 0,
      .prune { retainLatest := none, createdAtOrAfter := some 50 }]
    (by decide +kernel) 3

/-- the clock of the publishers goes back between two events, and retention deletes the one in the
middle -/
def clockSteppedBack : List (LogCall String) :=
  [.append (systemEvent "event-1" 100) 0, .append (systemEvent "event-2" 10) 0,
    .append (systemEvent "event-3" 100) 0,
    .prune { retainLatest := none, createdAtOrAfter := some 50 }]

/-- the resume from the first event then succeeds without the second -/
theorem resume_skips_pruned_event :
    ¬ ∀ (calls : List (LogCall String)) (k : Nat),
      Resumes (before History.step History.new calls k) := by
  intro h
  have hreplay : replayEventStream (before History.step History.new clockSteppedBack 4).log
      (some "event-1") { topics := [.systemEvent], accountScope := ⟨[]⟩ } 10
      = .ok { highWater := some 3, records := [(systemEvent "event-3" 100).at 3],
              hasMore := false } := by
    decide +kernel
  obtain ⟨cursor, high, hfetch, hhigh, hall⟩ :=
    (h clockSteppedBack 4).complete _ _ _ _ hreplay rfl
  have hcursor : (before History.step History.new clockSteppedBack 4).log.fetch "event-1"
      = some ((systemEvent "event-1" 100).at 1) := by
    decide +kernel
  obtain rfl := Option.some.inj (hfetch.symm.trans hcursor)
  obtain rfl : 3 = high := Option.some.inj hhigh
  have hmissed := hall ((systemEvent "event-2" 10).at 2) (by decide +kernel) (by decide)
    (by decide) (by decide)
  exact absurd hmissed (by decide)

end Sinan.Events
