import Sinan.Lib.Text
import Sinan.Store.Delivery

/-!
# Outbound delivery work

One row of `outbound_delivery_work` schedules the delivery of one command or reconciliation request.
A worker claims a due row under a lease, and completes it or schedules a retry; a retry may advance
the generation, and the message id is derived from the subject and the generation.

What a claim reads of other tables (the commands that are still CREATED, the runs that are REQUESTED
and the loading of the claimed subject) is its argument.
-/

namespace Sinan.Store

open Lib

inductive OutboundDeliveryWorkStatus where
  | pending
  | processing
  | delivered
  deriving DecidableEq

inductive OutboundDeliveryWorkOutcome where
  | sent
  | unconfirmed
  | rejected
  | definitelyNotWritten
  | infrastructureError
  | superseded
  | expired
  | permanentRejection
  deriving DecidableEq

def OutboundDeliveryWorkOutcome.mayComplete : OutboundDeliveryWorkOutcome → Bool
  | .sent | .unconfirmed | .superseded | .expired | .permanentRejection => true
  | _ => false

def OutboundDeliveryWorkOutcome.mayRetry : OutboundDeliveryWorkOutcome → Bool
  | .rejected | .definitelyNotWritten | .infrastructureError => true
  | _ => false

/-- the work table names its subject as the delivery tables do -/
abbrev OutboundDeliveryWorkSubject := DeliverySubject

structure StoredOutboundDeliveryWork where
  workId : String
  subject : OutboundDeliveryWorkSubject
  generation : Nat
  messageId : MessageId
  status : OutboundDeliveryWorkStatus
  deliveryAttempts : Nat
  nextAttemptAt : Option Int
  leaseOwner : Option String
  leaseExpiresAt : Option Int
  revision : Nat
  lastOutcome : Option OutboundDeliveryWorkOutcome
  lastError : Option String
  completedAt : Option Int
  createdAt : Int
  updatedAt : Int
  deriving DecidableEq

structure ClaimOutboundDeliveryWork where
  workerId : String
  claimedAt : Int
  leaseExpiresAt : Int

structure CompleteOutboundDeliveryWork where
  workId : String
  expectedRevision : Nat
  workerId : String
  completedAt : Int
  outcome : OutboundDeliveryWorkOutcome
  error : Option String

structure RetryOutboundDeliveryWork where
  workId : String
  expectedRevision : Nat
  workerId : String
  failedAt : Int
  retryAt : Int
  outcome : OutboundDeliveryWorkOutcome
  error : String
  advanceGeneration : Bool

abbrev WorkTable :=
  Table (fun w : StoredOutboundDeliveryWork => w.workId) (fun w => some w.messageId)

def staleWork (workId : String) : StoreError := .staleWrite "outbound_delivery_work" workId

def invalidWork (workId reason : String) : StoreError :=
  .invalidRecord "outbound_delivery_work" workId reason

/-! ## identities -/

def workId : OutboundDeliveryWorkSubject → String
  | .executionCommand commandId => "execution.command:" ++ commandId
  | .reconciliationRequest requestId => "reconciliation.request:" ++ requestId

def messageId (subject : OutboundDeliveryWorkSubject) (generation : Nat) : MessageId :=
  "msg:" ++ workId subject ++ ":v" ++ generation.repr

/-! ## conditions of the schema -/

/-- the columns of a row fit its status -/
def workStatusCheck (w : StoredOutboundDeliveryWork) : Bool :=
  match w.status with
  | .pending => w.nextAttemptAt.isSome && w.leaseOwner.isNone && w.leaseExpiresAt.isNone &&
      w.completedAt.isNone
  | .processing => w.nextAttemptAt.isNone && w.leaseOwner.any (fun owner => !sqlBlank owner) &&
      w.leaseExpiresAt.any (fun t => w.updatedAt < t) && w.completedAt.isNone
  | .delivered => w.nextAttemptAt.isNone && w.leaseOwner.isNone && w.leaseExpiresAt.isNone &&
      w.completedAt.isSome

/-- the `CHECK` constraints of `outbound_delivery_work` -/
def workCheck (w : StoredOutboundDeliveryWork) : Bool :=
  decide (0 < w.generation) && workStatusCheck w &&
  w.nextAttemptAt.all (fun t => w.createdAt ≤ t) && w.completedAt.all (fun t => w.createdAt ≤ t) &&
  decide (w.createdAt ≤ w.updatedAt) && w.lastError.all (fun e => !sqlBlank e)

/-- the update triggers with the constraints on the new row -/
def workMayChange (old new : StoredOutboundDeliveryWork) : Bool :=
  new.revision == old.revision + 1 && decide (old.updatedAt ≤ new.updatedAt) &&
  decide (old.deliveryAttempts ≤ new.deliveryAttempts) &&
  decide (new.deliveryAttempts ≤ old.deliveryAttempts + 1) &&
  decide (old.generation ≤ new.generation) && decide (new.generation ≤ old.generation + 1) &&
  old.status != .delivered &&
  !(new.generation == old.generation && new.messageId != old.messageId) &&
  !(new.generation == old.generation + 1 && new.messageId == old.messageId) && workCheck new

/-! ## readers -/

def validateWorkMessageId (w : StoredOutboundDeliveryWork) : StoreCheck Unit :=
  reject (w.messageId ≠ messageId w.subject w.generation)
    (.corruptData "outbound_delivery_work" w.workId
      "message_id does not match subject and generation")

def workFromRow (w : StoredOutboundDeliveryWork) : StoreCheck StoredOutboundDeliveryWork := do
  validateWorkMessageId w
  return w

def fetchWork (works : WorkTable) (id : String) : StoreCheck (Option StoredOutboundDeliveryWork) :=
  readRow workFromRow (works.get id)

def requiredWork (works : WorkTable) (id : String) : StoreCheck StoredOutboundDeliveryWork := do
  let found ← fetchWork works id
  need found (.notFound "outbound_delivery_work" id)

/-- `UPDATE outbound_delivery_work … WHERE work_id = ? AND` the condition -/
def updateWork (works : WorkTable) (id : String) (fits : StoredOutboundDeliveryWork → Bool)
    (change : StoredOutboundDeliveryWork → StoredOutboundDeliveryWork) : StoreCheck WorkTable := do
  let row ← need ((works.get id).filter fits) (staleWork id)
  let changed := { change row with workId := row.workId, subject := row.subject }
  sqlGuard (workMayChange row changed)
  need (works.put changed) .database

/-! ## claims -/

def validateClaim (claim : ClaimOutboundDeliveryWork) : StoreCheck Unit :=
  reject (blank claim.workerId = true ∨ claim.claimedAt < 0 ∨
      claim.leaseExpiresAt ≤ claim.claimedAt)
    (invalidWork claim.workerId "claim requires a non-empty owner and a future lease")

/-- a pending row that is due, or a lease that has expired -/
def workDue (claimedAt : Int) (w : StoredOutboundDeliveryWork) : Bool :=
  (w.status == .pending && w.nextAttemptAt.any (fun t => t ≤ claimedAt)) ||
  (w.status == .processing && w.leaseExpiresAt.any (fun t => t ≤ claimedAt))

/-- a row of the candidate query -/
structure WorkCandidate where
  existingRank : Nat
  dueAt : Int
  subject : OutboundDeliveryWorkSubject
  deriving DecidableEq

def subjectKind : OutboundDeliveryWorkSubject → String
  | .executionCommand _ => "EXECUTION_COMMAND"
  | .reconciliationRequest _ => "RECONCILIATION_REQUEST"

def subjectId : OutboundDeliveryWorkSubject → String
  | .executionCommand commandId => commandId
  | .reconciliationRequest requestId => requestId

/-- `ORDER BY existing_rank, due_at, kind, subject_id` -/
def WorkCandidate.before (x y : WorkCandidate) : Prop :=
  x.existingRank < y.existingRank ∨ (x.existingRank = y.existingRank ∧
    (x.dueAt < y.dueAt ∨ (x.dueAt = y.dueAt ∧
      (subjectKind x.subject < subjectKind y.subject ∨
        (subjectKind x.subject = subjectKind y.subject ∧
          subjectId x.subject ≤ subjectId y.subject)))))

instance : DecidableRel WorkCandidate.before := fun x y => by
  unfold WorkCandidate.before
  infer_instance

/-- the subjects that may still need a row: CREATED commands and REQUESTED runs, with their times -/
structure UnscheduledSubjects where
  created : List (CommandId × Int)
  requested : List (RequestId × Int)

def hasWork (works : WorkTable) (subject : OutboundDeliveryWorkSubject) : Bool :=
  works.rows.any fun w => w.subject == subject

def workCandidates (works : WorkTable) (subjects : UnscheduledSubjects) (claimedAt : Int) :
    List WorkCandidate :=
  ((works.rows.filter (workDue claimedAt)).map fun w => ⟨0, w.createdAt, w.subject⟩) ++
  ((subjects.created.map fun c => (⟨1, c.2, .executionCommand c.1⟩ : WorkCandidate)).filter
    fun c => !hasWork works c.subject) ++
  ((subjects.requested.map fun r => (⟨1, r.2, .reconciliationRequest r.1⟩ : WorkCandidate)).filter
    fun c => !hasWork works c.subject)

def newWork (subject : OutboundDeliveryWorkSubject) (claimedAt : Int) :
    StoredOutboundDeliveryWork where
  workId := workId subject
  subject := subject
  generation := 1
  messageId := messageId subject 1
  status := .pending
  deliveryAttempts := 0
  nextAttemptAt := some claimedAt
  leaseOwner := none
  leaseExpiresAt := none
  revision := 0
  lastOutcome := none
  lastError := none
  completedAt := none
  createdAt := claimedAt
  updatedAt := claimedAt

/-- the row of the subject is created on its first claim -/
def ensureWork (works : WorkTable) (subject : OutboundDeliveryWorkSubject) (claimedAt : Int) :
    Option StoredOutboundDeliveryWork → StoreCheck WorkTable
  | some _ => .ok works
  | none => do
    sqlGuard (workCheck (newWork subject claimedAt))
    need (works.insert (newWork subject claimedAt)) .database

/-- the lease of a claimed row -/
def leaseWork (works : WorkTable) (claim : ClaimOutboundDeliveryWork)
    (current : StoredOutboundDeliveryWork) : StoreCheck WorkTable := do
  let nextRevision ← checkedIncrement "outbound_delivery_work.revision" current.revision
  let nextAttempts ← checkedIncrement "outbound_delivery_work.delivery_attempts"
    current.deliveryAttempts
  updateWork works current.workId
    (fun row => row.revision == current.revision && workDue claim.claimedAt row)
    fun row => { row with
      status := .processing, deliveryAttempts := nextAttempts, nextAttemptAt := none,
      leaseOwner := some claim.workerId, leaseExpiresAt := some claim.leaseExpiresAt,
      revision := nextRevision, updatedAt := claim.claimedAt }

def claimSubject (works : WorkTable) (claim : ClaimOutboundDeliveryWork)
    (subject : OutboundDeliveryWorkSubject) :
    StoreCheck (StoredOutboundDeliveryWork × WorkTable) := do
  let existing ← fetchWork works (workId subject)
  let works ← ensureWork works subject claim.claimedAt existing
  let current ← requiredWork works (workId subject)
  let works ← leaseWork works claim current
  let work ← requiredWork works (workId subject)
  return (work, works)

/-- `claim_next_outbound_delivery`: the first candidate is leased and its subject loaded -/
def claimNextOutboundDelivery (works : WorkTable) (subjects : UnscheduledSubjects)
    (load : OutboundDeliveryWorkSubject → StoreCheck Unit) (claim : ClaimOutboundDeliveryWork) :
    StoreCheck (Option StoredOutboundDeliveryWork × WorkTable) := do
  validateClaim claim
  match ((workCandidates works subjects claim.claimedAt).insertionSort WorkCandidate.before) with
  | [] => return (none, works)
  | candidate :: _ =>
    let claimed ← claimSubject works claim candidate.subject
    load claimed.1.subject
    return (some claimed.1, claimed.2)

/-! ## the end of a delivery -/

def validateError (outcome : OutboundDeliveryWorkOutcome) (error : Option String) (id : String) :
    StoreCheck Unit := do
  reject (outcome = .unconfirmed ∧ error.all blank = true)
    (invalidWork id "unconfirmed delivery requires an error")
  reject (blankOpt error = true) (invalidWork id "delivery error must not be empty")

def validateOwnedWork (works : WorkTable) (id : String) (expectedRevision : Nat)
    (workerId : String) (finishedAt : Int) : StoreCheck StoredOutboundDeliveryWork := do
  reject (blank workerId = true ∨ finishedAt < 0)
    (invalidWork id "invalid owner or completion timestamp")
  let current ← requiredWork works id
  reject (current.status ≠ .processing ∨ current.revision ≠ expectedRevision ∨
      current.leaseOwner ≠ some workerId ∨ finishedAt < current.updatedAt ∨
      current.leaseExpiresAt.all (fun t => t ≤ finishedAt) = true) (staleWork id)
  return current

/-- `WHERE status = 'PROCESSING' AND revision = ? AND lease_owner = ? AND lease_expires_at > ?` -/
def ownedRow (expectedRevision : Nat) (workerId : String) (finishedAt : Int)
    (row : StoredOutboundDeliveryWork) : Bool :=
  row.status == .processing && row.revision == expectedRevision &&
  row.leaseOwner == some workerId && row.leaseExpiresAt.any (fun t => finishedAt < t)

def completeOutboundDeliveryWork (works : WorkTable) (completion : CompleteOutboundDeliveryWork) :
    StoreCheck (StoredOutboundDeliveryWork × WorkTable) := do
  reject (completion.outcome.mayComplete = false)
    (invalidWork completion.workId "retryable outcome cannot complete work")
  validateError completion.outcome completion.error completion.workId
  let current ← validateOwnedWork works completion.workId completion.expectedRevision
    completion.workerId completion.completedAt
  let nextRevision ← checkedIncrement "outbound_delivery_work.revision" current.revision
  let works ← updateWork works completion.workId
    (ownedRow completion.expectedRevision completion.workerId completion.completedAt)
    fun row => { row with
      status := .delivered, nextAttemptAt := none, leaseOwner := none, leaseExpiresAt := none,
      revision := nextRevision, lastOutcome := some completion.outcome,
      lastError := completion.error, completedAt := some completion.completedAt,
      updatedAt := completion.completedAt }
  let work ← requiredWork works completion.workId
  return (work, works)

def nextGeneration (advance : Bool) (current : StoredOutboundDeliveryWork) : StoreCheck Nat :=
  if advance then checkedIncrement "outbound_delivery_work.generation" current.generation
  else .ok current.generation

def retryOutboundDeliveryWork (works : WorkTable) (retry : RetryOutboundDeliveryWork) :
    StoreCheck (StoredOutboundDeliveryWork × WorkTable) := do
  reject (retry.outcome.mayRetry = false)
    (invalidWork retry.workId "delivered outcome cannot schedule a retry")
  reject (blank retry.error = true ∨ retry.retryAt ≤ retry.failedAt)
    (invalidWork retry.workId "retry requires a non-empty error and retry_at later than failed_at")
  let current ← validateOwnedWork works retry.workId retry.expectedRevision retry.workerId
    retry.failedAt
  let nextRevision ← checkedIncrement "outbound_delivery_work.revision" current.revision
  let generation ← nextGeneration retry.advanceGeneration current
  let works ← updateWork works retry.workId
    (ownedRow retry.expectedRevision retry.workerId retry.failedAt)
    fun row => { row with
      generation := generation, messageId := messageId current.subject generation,
      status := .pending, nextAttemptAt := some retry.retryAt, leaseOwner := none,
      leaseExpiresAt := none, revision := nextRevision, lastOutcome := some retry.outcome,
      lastError := some retry.error, completedAt := none, updatedAt := retry.failedAt }
  let work ← requiredWork works retry.workId
  return (work, works)

end Sinan.Store
