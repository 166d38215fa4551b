import Sinan.Core.Processor
import Sinan.Gateway.Outbound
import Sinan.Store.Claims

/-!
# Workers and sinks

The processor with the gateway behind it.  A worker that has claimed a piece of work carries out one
*task*: it prepares the delivery, claims the message, offers the frame to a sink, completes the write
with what the sink reports, and finishes the work.  Every step of a task is one transaction or one
exchange with the sink, and any number of tasks are interleaved; a worker that crashes takes no
further step.  The clock of a task does not run backwards.

A sink holds the frames it was given until it hands them to its transport.  It is truthful: it reports
that a frame was not written only for a frame it still holds, and drops that frame.
-/

namespace Sinan.Core

open Lib Execution Store Gateway

/-- where a task stands -/
inductive TaskPhase (P : Type) where
  | claimed
  | prepared (delivery : StoredOutboundDelivery P)
  | offering (delivery : StoredOutboundDelivery P)
  | writing (delivery : StoredOutboundDelivery P)
  | written (delivery : StoredOutboundDelivery P) (outcome : SinkWriteOutcome)
  | reloading (messageId : MessageId) (observedAt : Int)
  | answered (answer : Delivery DeliveryOutcome)
  | finished

structure Task (P : Type) where
  clock : Int
  phase : TaskPhase P

/-- The `i`-th task is about the `i`-th claim.  `queue` holds the frames of all sinks, `wire` those
handed to a transport, and `reported` those that a sink reported as written or as possibly written. -/
structure World (P F R : Type) where
  core : Processor P F R
  delivery : DeliveryTables P
  tasks : Nat → Task P
  queue : List MessageId
  wire : List MessageId
  reported : List MessageId

inductive TaskCall where
  | prepare
  | claimOutbox
  | offer (live : Bool)
  | report (outcome : SinkWriteOutcome)
  | complete
  | reload
  | finish (config : DurableOutboundConfig)

inductive WorldCall (P F R : Type) where
  | claim (config : DurableOutboundConfig) (now : Int)
  | task (i : Nat) (now : Int) (call : TaskCall)
  | hand (messageId : MessageId)
  | store (call : StoreCall P)
  | core (call : ProcessorCall P F R)

/-- the transactions on the delivery tables that other components make: those that enqueue, claim and
complete a message or record its rejection are made by a task -/
def foreign {P : Type} : StoreCall P → Bool
  | .enqueueWireOutbox _ | .enqueueReservedDelivery _ | .recordDeliveryAttempt _ | .claimOutbox _
  | .finishTransportWrite _ _ => false
  | _ => true

/-- the transactions on the other tables that are made by no worker -/
def business {P F R : Type} : ProcessorCall P F R → Bool
  | .claim _ _ | .finish _ _ _ _ => false
  | _ => true

/-- the sink says that nothing was written -/
def unwritten : SinkWriteOutcome → Bool
  | .backpressure _ | .definitelyNotWritten _ => true
  | .written | .unconfirmed _ => false

section
variable {P F R : Type} [DecidableEq P] [DecidableEq F] [F64 F]

instance (claimed : ClaimedOutboundDelivery F) : Decidable claimed.Late := by
  cases claimed <;> unfold ClaimedOutboundDelivery.Late <;> infer_instance

/-- the task takes a step -/
def World.turn (w : World P F R) (i : Nat) (now : Int) (phase : TaskPhase P) : World P F R :=
  { w with tasks := Function.update w.tasks i ⟨now, phase⟩ }

/-- what is fixed over a run -/
structure Setting (P F R : Type) where
  payloads : PayloadCodec P F
  runStore : RunStore R
  wire : WireCodec P
  adapter : GatewayOutboundAdapter
  commandCodec : RequestCodec P (ExecutionCommand F)
  requestCodec : RequestCodec P ReconciliationRequest

variable (env : Setting P F R)

/-- the delivery request of a claim, prepared -/
def prepareClaimed (t : DeliveryTables P) (now : Int) :
    ClaimedOutboundDelivery F → Delivery (PreparedDelivery P × DeliveryTables P)
  | .executionCommand work command _ correlationId causationId =>
    Gateway.deliverCommand env.wire env.adapter env.commandCodec t
      (commandRequest work command.command correlationId causationId) now
  | .reconciliationRequest work run =>
    Gateway.deliverReconciliation env.wire env.adapter env.requestCodec t
      (reconciliationDeliveryRequest work run) now

def preparedPhase : PreparedDelivery P → TaskPhase P
  | .outcome outcome => .answered (.ok outcome)
  | .write delivery => .prepared delivery

def prepareTask (w : World P F R) (i : Nat) (now : Int) (claimed : ClaimedOutboundDelivery F) :
    World P F R :=
  match prepareClaimed env w.delivery now claimed with
  | .ok (prepared, t) => ({ w with delivery := t }).turn i now (preparedPhase prepared)
  | .error error => w.turn i now (.answered (.error error))

def afterClaimPhase (messageId : MessageId) : AfterClaim P → TaskPhase P
  | .offer claimed => .offering claimed
  | .reload observedAt => .reloading messageId observedAt
  | .answered answer => .answered answer

def claimTask (w : World P F R) (i : Nat) (now : Int) (d : StoredOutboundDelivery P) :
    World P F R :=
  let claimed := claimPrepared env.wire env.adapter w.delivery d now
  ({ w with delivery := claimed.2 }).turn i now (afterClaimPhase d.outbox.messageId claimed.1)

/-- without a live session the frame goes to no sink -/
def offerTask (w : World P F R) (i : Nat) (now : Int) (d : StoredOutboundDelivery P)
    (live : Bool) : World P F R :=
  match outboundFrame d with
  | .error error => w.turn i now (.answered (.error error))
  | .ok frame =>
    if live then ({ w with queue := frame.messageId :: w.queue }).turn i now (.writing d)
    else w.turn i now (.written d noLiveSink)

def reportTask (w : World P F R) (i : Nat) (now : Int) (d : StoredOutboundDelivery P)
    (outcome : SinkWriteOutcome) : World P F R :=
  if unwritten outcome then
    if d.outbox.messageId ∈ w.queue then
      ({ w with queue := w.queue.erase d.outbox.messageId }).turn i now (.written d outcome)
    else w
  else ({ w with reported := d.outbox.messageId :: w.reported }).turn i now (.written d outcome)

def afterWritePhase (messageId : MessageId) : AfterWrite → TaskPhase P
  | .reload observedAt => .reloading messageId observedAt
  | .answered answer => .answered answer

def completeTask (w : World P F R) (i : Nat) (now : Int) (d : StoredOutboundDelivery P)
    (outcome : SinkWriteOutcome) : World P F R :=
  let completed := completeWrite env.wire env.adapter w.delivery d outcome now
  ({ w with delivery := completed.2 }).turn i now
    (afterWritePhase d.outbox.messageId completed.1)

def reloadTask (w : World P F R) (i : Nat) (now : Int) (messageId : MessageId)
    (observedAt : Int) : World P F R :=
  w.turn i now (.answered (reloadExisting env.wire env.adapter w.delivery messageId observedAt))

def finishTask (w : World P F R) (i : Nat) (now : Int) (config : DurableOutboundConfig)
    (answer : Delivery DeliveryOutcome) : World P F R :=
  ({ w with
    core := processorStep env.payloads env.runStore w.core (.finish config i answer now) }).turn
      i now .finished

/-- a late claim is finished without a delivery -/
def noDelivery : Delivery DeliveryOutcome := .error ⟨""⟩

/-- a call that does not fit the phase of the task does nothing -/
def taskStep (w : World P F R) (i : Nat) (now : Int) (claimed : ClaimedOutboundDelivery F) :
    TaskPhase P → TaskCall → World P F R
  | .claimed, .prepare => if claimed.Late then w else prepareTask env w i now claimed
  | .claimed, .finish config => if claimed.Late then finishTask env w i now config noDelivery else w
  | .prepared d, .claimOutbox => claimTask env w i now d
  | .offering d, .offer live => offerTask w i now d live
  | .writing d, .report outcome => reportTask w i now d outcome
  | .written d outcome, .complete => completeTask env w i now d outcome
  | .reloading messageId observedAt, .reload => reloadTask env w i now messageId observedAt
  | .answered answer, .finish config => finishTask env w i now config answer
  | _, _ => w

def handFrame (w : World P F R) (m : MessageId) : World P F R :=
  if m ∈ w.queue then { w with queue := w.queue.erase m, wire := m :: w.wire } else w

/-- a claim starts the task of its number -/
def claimStep (w : World P F R) (config : DurableOutboundConfig) (now : Int) : World P F R :=
  ({ w with core := processorStep env.payloads env.runStore w.core (.claim config now) }).turn
    w.core.claims.length now .claimed

def worldStep (w : World P F R) : WorldCall P F R → World P F R
  | .claim config now => claimStep env w config now
  | .task i now call =>
    match w.core.claims[i]? with
    | none => w
    | some claimed =>
      if (w.tasks i).clock ≤ now then taskStep env w i now claimed (w.tasks i).phase call else w
  | .hand m => handFrame w m
  | .store call =>
    if foreign call then { w with delivery := storeStep env.wire w.delivery call } else w
  | .core call =>
    if business call then { w with core := processorStep env.payloads env.runStore w.core call }
    else w

/-- no outbound work, no message and no frame yet -/
def freshWorld (tables : CommandTables P F) (runs : R) (parents : Parents P) : World P F R :=
  ⟨freshProcessor tables runs, ⟨.empty, .empty, .empty, parents⟩, fun _ => ⟨0, .claimed⟩, [], [], []⟩

/-- the world in front of the `k`-th call -/
def worldAt (tables : CommandTables P F) (runs : R) (parents : Parents P)
    (calls : List (WorldCall P F R)) (k : Nat) : World P F R :=
  before (worldStep env) (freshWorld tables runs parents) calls k

end

end Sinan.Core
